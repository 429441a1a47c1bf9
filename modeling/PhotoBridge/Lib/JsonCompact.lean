/-
A JSON library: the compact printer, a parser for what it prints, and
the proof that the two are lawful (Lib/Json.lean).

The printer escapes what JSON has it escape and writes every other byte
of a string as it is. The parser reads compact text without numbers; it
recurses on fuel, of which the length of the text is always enough, and
everything about it is read off `parseValue_print`.
-/
import Mathlib.Data.UInt
import PhotoBridge.Lib.Json

namespace JsonText

-- ============================================================= printing

/-- The digit of a number below sixteen. -/
def hexChar (v : UInt8) : UInt8 := if v < 10 then 48 + v else 87 + v

/-- A byte of a string, escaped if it has to be. -/
def escapeByte (b : UInt8) : List UInt8 :=
  if b = 34 then [92, 34]
  else if b = 92 then [92, 92]
  else if b = 8 then [92, 98]
  else if b = 12 then [92, 102]
  else if b = 10 then [92, 110]
  else if b = 13 then [92, 114]
  else if b = 9 then [92, 116]
  else if b < 32 then [92, 117, 48, 48, hexChar (b >>> 4), hexChar (b &&& 15)]
  else [b]

/-- A string in quotes. -/
def printString (value : List UInt8) : List UInt8 :=
  34 :: (value.flatMap escapeByte ++ [34])

mutual

def print : Json → List UInt8
  | .null => [110, 117, 108, 108]
  | .bool true => [116, 114, 117, 101]
  | .bool false => [102, 97, 108, 115, 101]
  | .number literal => literal
  | .string value => printString value
  | .array items => 91 :: (printItems items ++ [93])
  | .object members => 123 :: (printMembers members ++ [125])

def printItems : List Json → List UInt8
  | [] => []
  | item :: rest =>
      print item ++ if rest.isEmpty then [] else 44 :: printItems rest

def printMembers : List (List UInt8 × Json) → List UInt8
  | [] => []
  | member :: rest =>
      printMember member
        ++ if rest.isEmpty then [] else 44 :: printMembers rest

def printMember : List UInt8 × Json → List UInt8
  | (key, value) => printString key ++ 58 :: print value

end

-- ============================================================== parsing

/-- The value of a hexadecimal digit. -/
def hexNumber (c : UInt8) : Option UInt8 :=
  if 48 ≤ c ∧ c ≤ 57 then some (c - 48)
  else if 97 ≤ c ∧ c ≤ 102 then some (c - 87)
  else if 65 ≤ c ∧ c ≤ 70 then some (c - 55)
  else none

/-- The byte a one-letter escape stands for. -/
def unescape (letter : UInt8) : Option UInt8 :=
  if letter = 34 then some 34
  else if letter = 92 then some 92
  else if letter = 47 then some 47
  else if letter = 98 then some 8
  else if letter = 102 then some 12
  else if letter = 110 then some 10
  else if letter = 114 then some 13
  else if letter = 116 then some 9
  else none

/-- One more byte in front of what was read. -/
def withByte (b : UInt8) (p : List UInt8 × List UInt8) :
    List UInt8 × List UInt8 :=
  (b :: p.1, p.2)

/-- The string up to its closing quote, and what follows. -/
def parseString : List UInt8 → Option (List UInt8 × List UInt8)
  | 34 :: rest => some ([], rest)
  | 92 :: 117 :: 48 :: 48 :: high :: low :: rest =>
      match hexNumber high, hexNumber low with
      | some h, some l => (parseString rest).map (withByte (h <<< 4 ||| l))
      | _, _ => none
  | 92 :: letter :: rest =>
      match unescape letter with
      | some b => (parseString rest).map (withByte b)
      | none => none
  | b :: rest =>
      if b < 32 then none else (parseString rest).map (withByte b)
  | [] => none

mutual

/-- A value, and what follows it. -/
def parseValue : Nat → List UInt8 → Option (Json × List UInt8)
  | 0, _ => none
  | fuel + 1, input =>
      match input with
      | 110 :: 117 :: 108 :: 108 :: rest => some (.null, rest)
      | 116 :: 114 :: 117 :: 101 :: rest => some (.bool true, rest)
      | 102 :: 97 :: 108 :: 115 :: 101 :: rest => some (.bool false, rest)
      | 34 :: rest => do
          let (value, rest') ← parseString rest
          pure (.string value, rest')
      | 91 :: 93 :: rest => some (.array [], rest)
      | 91 :: rest => do
          let (items, rest') ← parseItems fuel rest
          pure (.array items, rest')
      | 123 :: 125 :: rest => some (.object [], rest)
      | 123 :: rest => do
          let (members, rest') ← parseMembers fuel rest
          pure (.object members, rest')
      | _ => none

/-- The items up to the closing bracket. -/
def parseItems : Nat → List UInt8 → Option (List Json × List UInt8)
  | 0, _ => none
  | fuel + 1, input => do
      let (item, rest) ← parseValue fuel input
      match rest with
      | 93 :: rest' => pure ([item], rest')
      | 44 :: rest' => do
          let (items, rest'') ← parseItems fuel rest'
          pure (item :: items, rest'')
      | _ => none

/-- The members up to the closing brace. -/
def parseMembers :
    Nat → List UInt8 → Option (List (List UInt8 × Json) × List UInt8)
  | 0, _ => none
  | fuel + 1, input =>
      match input with
      | 34 :: rest => do
          let (key, rest₁) ← parseString rest
          match rest₁ with
          | 58 :: rest₂ => do
              let (value, rest₃) ← parseValue fuel rest₂
              match rest₃ with
              | 125 :: rest₄ => pure ([(key, value)], rest₄)
              | 44 :: rest₄ => do
                  let (members, rest₅) ← parseMembers fuel rest₄
                  pure ((key, value) :: members, rest₅)
              | _ => none
          | _ => none
      | _ => none

end

/-- The compact library. -/
def compact : Codec where
  dump value := .ok (print value)
  parse line :=
    match parseValue (line.length + 1) line with
    | some (value, []) => .ok value
    | _ => .error []

-- ============================================================== strings

/-- The two digits of a byte give it back. -/
theorem hexNumber_hexChar (b : UInt8) :
    hexNumber (hexChar (b >>> 4)) = some (b >>> 4)
      ∧ hexNumber (hexChar (b &&& 15)) = some (b &&& 15)
      ∧ b >>> 4 <<< 4 ||| b &&& 15 = b := by
  have hall : ∀ n < 256,
      hexNumber (hexChar (UInt8.ofNat n >>> 4)) = some (UInt8.ofNat n >>> 4)
        ∧ hexNumber (hexChar (UInt8.ofNat n &&& 15))
          = some (UInt8.ofNat n &&& 15)
        ∧ UInt8.ofNat n >>> 4 <<< 4 ||| UInt8.ofNat n &&& 15
          = UInt8.ofNat n := by
    decide +kernel
  have hb := hall b.toNat b.toNat_lt
  rwa [UInt8.ofNat_toNat] at hb

/-- An ordinary byte stands for itself. -/
theorem parseString_plain {b : UInt8} (hquote : b ≠ 34) (hslash : b ≠ 92)
    (hcontrol : ¬b < 32) (rest : List UInt8) :
    parseString (b :: rest) = (parseString rest).map (withByte b) := by
  conv_lhs => unfold parseString
  split
  · next heq => exact absurd (List.cons.inj heq).1 hquote
  · next heq => exact absurd (List.cons.inj heq).1 hslash
  · next heq => exact absurd (List.cons.inj heq).1 hslash
  · next heq =>
    obtain ⟨rfl, rfl⟩ := List.cons.inj heq
    rw [if_neg hcontrol]
  · next heq => cases heq

/-- A byte that was written is read back. -/
theorem parseString_escapeByte (b : UInt8) (rest : List UInt8) :
    parseString (escapeByte b ++ rest)
      = (parseString rest).map (withByte b) := by
  unfold escapeByte
  split
  · next h => subst h; rfl
  split
  · next h => subst h; rfl
  split
  · next h => subst h; rfl
  split
  · next h => subst h; rfl
  split
  · next h => subst h; rfl
  split
  · next h => subst h; rfl
  split
  · next h => subst h; rfl
  split
  · -- a control character, as \u00 and two digits
    obtain ⟨hhigh, hlow, hboth⟩ := hexNumber_hexChar b
    show parseString (92 :: 117 :: 48 :: 48 :: hexChar (b >>> 4)
      :: hexChar (b &&& 15) :: rest) = _
    conv_lhs => unfold parseString
    simp only [hhigh, hlow, hboth]
  · next hquote hslash _ _ _ _ _ hcontrol =>
    exact parseString_plain hquote hslash hcontrol rest

/-- A string that was written is read back. -/
theorem parseString_print (value rest : List UInt8) :
    parseString (value.flatMap escapeByte ++ 34 :: rest)
      = some (value, rest) := by
  induction value with
  | nil => rfl
  | cons b tail ih =>
      rw [List.flatMap_cons, List.append_assoc, parseString_escapeByte, ih]
      rfl

-- =============================================================== values

/-- What a value's text begins with closes nothing. -/
theorem print_head {value : Json} (h : value.Textual) :
    ∃ b tail, print value = b :: tail ∧ b ≠ 93 := by
  cases h with
  | null => exact ⟨_, _, rfl, by decide⟩
  | bool value => cases value <;> exact ⟨_, _, rfl, by decide⟩
  | string h => exact ⟨_, _, rfl, by decide⟩
  | array h => exact ⟨_, _, rfl, by decide⟩
  | object _ _ _ => exact ⟨_, _, rfl, by decide⟩

/-- With enough fuel, reading the value's text gives the value. -/
def Reads (value : Json) : Prop :=
  ∀ (fuel : Nat) (rest : List UInt8), (print value).length < fuel →
    parseValue fuel (print value ++ rest) = some (value, rest)

/-- The items of an array are read back. -/
private theorem parseItems_print {items : List Json} (hne : items ≠ [])
    (h : ∀ item ∈ items, Reads item) :
    ∀ (fuel : Nat) (rest : List UInt8), (printItems items).length + 1 < fuel →
      parseItems fuel (printItems items ++ 93 :: rest)
        = some (items, rest) := by
  induction items with
  | nil => exact absurd rfl hne
  | cons item tail ih =>
      intro fuel rest hfuel
      obtain ⟨fuel, rfl⟩ : ∃ f, fuel = f + 1 := ⟨fuel - 1, by omega⟩
      have hitem := h item List.mem_cons_self
      cases tail with
      | nil =>
          have hprint : printItems [item] = print item := by
            simp [printItems]
          rw [hprint] at hfuel ⊢
          have hread := hitem fuel (93 :: rest) (by omega)
          simp [parseItems, hread]
      | cons next more =>
          have hprint : printItems (item :: next :: more)
              = print item ++ 44 :: printItems (next :: more) := by
            simp [printItems]
          rw [hprint] at hfuel ⊢
          rw [List.length_append, List.length_cons] at hfuel
          have hread := hitem fuel
            (44 :: (printItems (next :: more) ++ 93 :: rest)) (by omega)
          have hrest := ih (List.cons_ne_nil _ _)
            (fun i hi => h i (List.mem_cons_of_mem _ hi)) fuel rest (by omega)
          rw [List.append_assoc, List.cons_append]
          simp [parseItems, hread, hrest]

/-- The members of an object are read back. -/
private theorem parseMembers_print {members : List (List UInt8 × Json)}
    (hne : members ≠ []) (h : ∀ m ∈ members, Reads m.2) :
    ∀ (fuel : Nat) (rest : List UInt8),
      (printMembers members).length + 1 < fuel →
      parseMembers fuel (printMembers members ++ 125 :: rest)
        = some (members, rest) := by
  induction members with
  | nil => exact absurd rfl hne
  | cons member tail ih =>
      intro fuel rest hfuel
      obtain ⟨key, value⟩ := member
      obtain ⟨fuel, rfl⟩ : ∃ f, fuel = f + 1 := ⟨fuel - 1, by omega⟩
      have hvalue : Reads value := h (key, value) List.mem_cons_self
      have hmember : printMember (key, value)
          = 34 :: (key.flatMap escapeByte ++ 34 :: 58 :: print value) := by
        simp [printMember, printString]
      cases tail with
      | nil =>
          have hprint : printMembers [(key, value)]
              = 34 :: (key.flatMap escapeByte ++ 34 :: 58 :: print value) := by
            simp [printMembers, hmember]
          rw [hprint] at hfuel ⊢
          simp only [List.length_cons, List.length_append] at hfuel
          have hread := hvalue fuel (125 :: rest) (by omega)
          rw [List.cons_append, List.append_assoc]
          simp [parseMembers, parseString_print, hread]
      | cons next more =>
          have hprint : printMembers ((key, value) :: next :: more)
              = 34 :: (key.flatMap escapeByte ++ 34 :: 58 :: (print value
                ++ 44 :: printMembers (next :: more))) := by
            rw [printMembers, hmember]
            simp
          rw [hprint] at hfuel ⊢
          simp only [List.length_cons, List.length_append] at hfuel
          have hread := hvalue fuel
            (44 :: (printMembers (next :: more) ++ 125 :: rest)) (by omega)
          have hrest := ih (List.cons_ne_nil _ _)
            (fun m hm => h m (List.mem_cons_of_mem _ hm)) fuel rest (by omega)
          rw [List.cons_append, List.append_assoc]
          simp [parseMembers, parseString_print, hread, hrest]

/-- The parser reads back what the printer wrote. -/
theorem parseValue_print {value : Json} (h : value.Textual) :
    Reads value := by
  induction h with
  | null =>
      intro fuel rest hfuel
      obtain ⟨fuel, rfl⟩ : ∃ f, fuel = f + 1 := ⟨fuel - 1, by omega⟩
      rfl
  | bool value =>
      intro fuel rest hfuel
      obtain ⟨fuel, rfl⟩ : ∃ f, fuel = f + 1 := ⟨fuel - 1, by omega⟩
      cases value <;> rfl
  | @string value _ =>
      intro fuel rest hfuel
      obtain ⟨fuel, rfl⟩ : ∃ f, fuel = f + 1 := ⟨fuel - 1, by omega⟩
      have hprint : print (.string value) ++ rest
          = 34 :: (value.flatMap escapeByte ++ 34 :: rest) := by
        simp [print, printString]
      rw [hprint]
      simp [parseValue, parseString_print]
  | @array items hitems ih =>
      intro fuel rest hfuel
      obtain ⟨fuel, rfl⟩ : ∃ f, fuel = f + 1 := ⟨fuel - 1, by omega⟩
      cases items with
      | nil => rfl
      | cons item tail =>
          have hprint : print (.array (item :: tail)) ++ rest
              = 91 :: (printItems (item :: tail) ++ 93 :: rest) := by
            simp [print]
          rw [hprint]
          simp only [print, List.length_cons, List.length_append] at hfuel
          have hread := parseItems_print (List.cons_ne_nil item tail) ih fuel
            rest (by omega)
          -- the list is not empty, and its text does not begin like one
          obtain ⟨b, more, hstart, hne⟩ : ∃ b more, printItems (item :: tail)
              ++ 93 :: rest = b :: more ∧ b ≠ 93 := by
            obtain ⟨b, more, hhead, hne⟩ := print_head
              (hitems item List.mem_cons_self)
            rw [printItems, hhead]
            exact ⟨b, _, rfl, hne⟩
          rw [hstart] at hread ⊢
          simp [parseValue, hread, hne]
  | @object members _ _ _ ih =>
      intro fuel rest hfuel
      obtain ⟨fuel, rfl⟩ : ∃ f, fuel = f + 1 := ⟨fuel - 1, by omega⟩
      cases members with
      | nil => rfl
      | cons member tail =>
          have hprint : print (.object (member :: tail)) ++ rest
              = 123 :: (printMembers (member :: tail) ++ 125 :: rest) := by
            simp [print]
          rw [hprint]
          simp only [print, List.length_cons, List.length_append] at hfuel
          have hread := parseMembers_print (List.cons_ne_nil member tail) ih
            fuel rest (by omega)
          obtain ⟨more, hstart⟩ : ∃ more, printMembers (member :: tail)
              ++ 125 :: rest = 34 :: more := by
            obtain ⟨key, value⟩ := member
            exact ⟨_, rfl⟩
          rw [hstart] at hread ⊢
          simp [parseValue, hread]

-- ================================================================== laws

private theorem escapeByte_oneLine (b : UInt8) : 10 ∉ escapeByte b := by
  have hall : ∀ n < 256, 10 ∉ escapeByte (UInt8.ofNat n) := by
    decide +kernel
  have hb := hall b.toNat b.toNat_lt
  rwa [UInt8.ofNat_toNat] at hb

private theorem printString_oneLine (value : List UInt8) :
    10 ∉ printString value := by
  unfold printString
  simp only [List.mem_cons, List.mem_append, List.mem_flatMap, not_or]
  refine ⟨by decide, ?_, by simp⟩
  intro h
  obtain ⟨b, -, hb⟩ := h
  exact escapeByte_oneLine b hb

private theorem printItems_oneLine {items : List Json}
    (h : ∀ item ∈ items, 10 ∉ print item) : 10 ∉ printItems items := by
  induction items with
  | nil => simp [printItems]
  | cons item tail ih =>
      have htail := ih fun i hi => h i (List.mem_cons_of_mem _ hi)
      rw [printItems]
      simp only [List.mem_append, not_or]
      refine ⟨h item List.mem_cons_self, ?_⟩
      split
      · simp
      · simpa using htail

private theorem printMembers_oneLine {members : List (List UInt8 × Json)}
    (h : ∀ m ∈ members, 10 ∉ print m.2) : 10 ∉ printMembers members := by
  induction members with
  | nil => simp [printMembers]
  | cons member tail ih =>
      obtain ⟨key, value⟩ := member
      have hvalue : 10 ∉ print value := h (key, value) List.mem_cons_self
      have htail := ih fun m hm => h m (List.mem_cons_of_mem _ hm)
      rw [printMembers, printMember]
      simp only [List.mem_append, List.mem_cons, not_or]
      refine ⟨⟨printString_oneLine key, by decide, hvalue⟩, ?_⟩
      split
      · simp
      · simpa using htail

/-- A value is printed on one line. -/
private theorem print_oneLine {value : Json} (h : value.Textual) :
    10 ∉ print value := by
  induction h with
  | null => decide
  | bool value => cases value <;> decide
  | string _ =>
      rw [print]
      exact printString_oneLine _
  | array _ ih =>
      have hitems := printItems_oneLine ih
      rw [print]
      simpa using hitems
  | object _ _ _ ih =>
      have hmembers := printMembers_oneLine ih
      rw [print]
      simpa using hmembers

/-- The compact library keeps what the documentation promises. -/
theorem compact_lawful : compact.Lawful where
  round := by
    intro value h
    refine ⟨print value, rfl, ?_⟩
    have hread := parseValue_print h ((print value).length + 1) []
      (Nat.lt_succ_self _)
    rw [List.append_nil] at hread
    show (match parseValue ((print value).length + 1) (print value) with
      | some (value, []) => Except.ok value
      | _ => .error []) = _
    rw [hread]
  oneLine := by
    intro value line h hline
    cases hline
    exact print_oneLine h
  braces := by
    intro members line hline
    cases hline
    rw [print]
    refine ⟨rfl, ?_⟩
    rw [← List.cons_append, List.getLast?_concat]

-- ============================================================== lengths

private theorem length_escapeByte (b : UInt8) : 1 ≤ (escapeByte b).length := by
  unfold escapeByte
  repeat' split
  all_goals simp

private theorem length_printString (value : List UInt8) :
    value.length ≤ (printString value).length := by
  have hescaped : value.length ≤ (value.flatMap escapeByte).length := by
    induction value with
    | nil => simp
    | cons b rest ih =>
        have hb := length_escapeByte b
        rw [List.flatMap_cons, List.length_append, List.length_cons]
        omega
  rw [printString, List.length_cons, List.length_append]
  omega

/-- The text of an object's members is as long as a string among them. -/
theorem length_printMembers {members : List (List UInt8 × Json)}
    {key value : List UInt8} (h : (key, .string value) ∈ members) :
    value.length ≤ (printMembers members).length := by
  induction members with
  | nil => cases h
  | cons member rest ih =>
      rw [printMembers, List.length_append]
      rcases List.mem_cons.1 h with rfl | hrest
      · have hstring := length_printString value
        rw [printMember, print, List.length_append, List.length_cons]
        omega
      · have htail := ih hrest
        cases rest with
        | nil => cases hrest
        | cons next more =>
            rw [List.isEmpty_cons, if_neg (by decide), List.length_cons]
            omega

-- =============================================================== strict

/-- UTF-8 is what a byte array may hold to be a string. -/
theorem isUtf8_iff {bytes : List UInt8} :
    IsUtf8 bytes ↔ (ByteArray.mk bytes.toArray).IsValidUTF8 := by
  constructor
  · rintro ⟨s, rfl⟩
    exact s.isValidUTF8
  · intro h
    exact ⟨String.fromUTF8 _ h, rfl⟩

instance (bytes : List UInt8) : Decidable (IsUtf8 bytes) :=
  decidable_of_iff _ isUtf8_iff.symm

/-- A string is UTF-8, or the value is no string. -/
def Json.wellEncoded : Json → Bool
  | .string value => decide (IsUtf8 value)
  | _ => true

/-- The compact library, throwing at objects with ill-formed strings. -/
def strict : Codec where
  dump value :=
    match value with
    | .object members =>
        if members.all (·.2.wellEncoded) then compact.dump (.object members)
        else .error []
    | value => compact.dump value
  parse := compact.parse

/-- What the strict codec writes is what the compact one does. -/
theorem strict_dump {value : Json} {line : List UInt8}
    (h : strict.dump value = .ok line) : compact.dump value = .ok line := by
  cases value with
  | object members =>
      simp only [strict] at h
      split at h
      · exact h
      · cases h
  | _ => exact h

/-- A value of text is well encoded. -/
private theorem wellEncoded_textual {value : Json} (h : value.Textual) :
    value.wellEncoded = true := by
  cases h with
  | string h => exact decide_eq_true h
  | _ => rfl

private theorem members_wellEncoded {members : List (List UInt8 × Json)}
    (h : (Json.object members).Textual) :
    members.all (·.2.wellEncoded) = true := by
  cases h with
  | object _ _ hvalues =>
      exact List.all_eq_true.2 fun m hm => wellEncoded_textual (hvalues m hm)

/-- Textual values have nothing the strict library throws at. -/
theorem strict_textual {value : Json} (h : value.Textual) :
    strict.dump value = compact.dump value := by
  cases value with
  | object members =>
      simp only [strict, members_wellEncoded h, if_true]
  | _ => rfl

/-- The strict codec reads back what it writes. -/
theorem strict_lawful : strict.Lawful where
  round := by
    intro value h
    rw [strict_textual h]
    exact compact_lawful.round value h
  oneLine := fun value line h hline =>
    compact_lawful.oneLine value line h (strict_dump hline)
  braces := fun members line hline =>
    compact_lawful.braces members line (strict_dump hline)

/-- The strict codec is strict. -/
theorem strict_strict : strict.Strict := by
  intro members line hline m hm value hvalue
  simp only [strict] at hline
  split at hline
  · next hall =>
    have hm := List.all_eq_true.1 hall m hm
    rw [hvalue] at hm
    exact of_decide_eq_true hm
  · cases hline

/-- The strict library, throwing also where it reads ill-formed strings in
an object. -/
def utf8Strict : Codec where
  dump := strict.dump
  parse line :=
    match compact.parse line with
    | .error e => .error e
    | .ok (.object members) =>
        if members.all (·.2.wellEncoded) then .ok (.object members)
        else .error []
    | .ok value => .ok value

/-- A line of text is read by the strict reader as by the compact one. -/
theorem utf8Strict_parse {line : List UInt8} {value : Json} (h : value.Textual)
    (hparse : compact.parse line = .ok value) :
    utf8Strict.parse line = .ok value := by
  simp only [utf8Strict, hparse]
  cases value with
  | object members => simp only [members_wellEncoded h, if_true]
  | _ => rfl

/-- The codec of text reads back what it writes. -/
theorem utf8Strict_lawful : utf8Strict.Lawful where
  round := by
    intro value h
    obtain ⟨line, hdump, hparse⟩ := strict_lawful.round value h
    exact ⟨line, hdump, utf8Strict_parse h hparse⟩
  oneLine := strict_lawful.oneLine
  braces := strict_lawful.braces

/-- The codec of text writes text. -/
theorem utf8Strict_encoded : utf8Strict.Encoded := by
  intro line value hparse key string hfind
  cases value with
  | object members =>
      simp only [utf8Strict] at hparse
      cases hcompact : compact.parse line with
      | error e =>
          rw [hcompact] at hparse
          cases hparse
      | ok read =>
          rw [hcompact] at hparse
          cases read with
          | object read =>
              simp only at hparse
              split at hparse
              · next hall =>
                cases hparse
                obtain ⟨m, hm, hstring⟩ := Option.map_eq_some_iff.1 hfind
                have hvalue := List.all_eq_true.1 hall m
                  (List.mem_of_find?_eq_some hm)
                rw [hstring] at hvalue
                exact of_decide_eq_true hvalue
              · cases hparse
          | _ => cases hparse
  | _ => cases hfind

end JsonText
