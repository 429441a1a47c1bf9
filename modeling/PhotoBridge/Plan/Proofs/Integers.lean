/-
What the integer readers of an artifact accept (`RequiredUint64` and
`ParseSigned`): every number they can hold, and some they cannot.

The loop keeps its sum in 64 bits and takes a sum that got smaller for an
overflow. A digit can carry the sum past `2 ^ 64` and still leave it no
smaller; a number whose digits all do is read as its remainder
(`WrapsSilently`).
-/
import PhotoBridge.Lib.Joining
import PhotoBridge.Plan.Proofs.Artifact

namespace PhotoBridge

open JsonText Joining

-- ============================================================= decimals

/-- A non-empty string of ASCII digits. -/
def IsDecimal (digits : Bytes) : Prop :=
  digits ≠ [] ∧ ∀ digit ∈ digits, 48 ≤ digit ∧ digit ≤ 57

instance (digits : Bytes) : Decidable (IsDecimal digits) :=
  inferInstanceAs (Decidable (_ ∧ _))

/-- One more digit behind a number. -/
def withDigit (value : Nat) (digit : UInt8) : Nat :=
  10 * value + (digit.toNat - 48)

/-- The number the digits denote. -/
def decimalValue (digits : Bytes) : Nat := digits.foldl withDigit 0

/-- Read from `value` on, a sum kept in 64 bits never gets smaller. -/
def NeverShrinks : (value : Nat) → Bytes → Prop
  | _, [] => True
  | value, digit :: rest =>
      value % 2 ^ 64 ≤ withDigit value digit % 2 ^ 64
        ∧ NeverShrinks (withDigit value digit) rest

instance instDecidableNeverShrinks :
    ∀ (value : Nat) (digits : Bytes), Decidable (NeverShrinks value digits)
  | _, [] => inferInstanceAs (Decidable True)
  | value, digit :: rest =>
      have := instDecidableNeverShrinks (withDigit value digit) rest
      inferInstanceAs (Decidable (_ ∧ _))

/-- A number of more than 64 bits whose sum never gets smaller. -/
def WrapsSilently (digits : Bytes) : Prop :=
  IsDecimal digits ∧ 2 ^ 64 ≤ decimalValue digits ∧ NeverShrinks 0 digits

/-- The string starts with a minus sign. -/
def isNegative (value : Bytes) : Bool := value.head? == some 45

/-- What stands behind the minus sign, or where it is missing. -/
def magnitudeDigits (value : Bytes) : Bytes :=
  if isNegative value then value.drop 1 else value

/-- The integer a string of digits denotes, with or without a minus sign. -/
def integerValue (value : Bytes) : Int :=
  if isNegative value then -(decimalValue (magnitudeDigits value) : Int)
  else decimalValue (magnitudeDigits value)

/-- The magnitude a signed integer of 64 bits can have. -/
def signedBound (negative : Bool) : Nat :=
  if negative then 2 ^ 63 else 2 ^ 63 - 1

/-- A number of more than 64 bits whose remainder has the magnitude of a
signed integer. -/
def WrapsIntoRange (value : Bytes) : Prop :=
  WrapsSilently (magnitudeDigits value)
    ∧ decimalValue (magnitudeDigits value) % 2 ^ 64
      ≤ signedBound (isNegative value)

/-- `RequiredUint64` reads a string as the number it denotes, if that fits,
and refuses it otherwise. -/
def ReadsUint64 (value : Bytes) : Prop :=
  ∀ (object : Json) (key : String),
    object.find? (text key) = some (.string value) →
      ∀ number : UInt64, requiredUint64 object key = .ok number
        ↔ IsDecimal value ∧ decimalValue value = number.toNat

/-- `ParseSigned` reads a string as the integer it denotes, if that fits,
and refuses it otherwise. -/
def ReadsSigned (value : Bytes) : Prop :=
  ∀ number : Int64, parseSigned value = .ok number
    ↔ IsDecimal (magnitudeDigits value)
      ∧ integerValue value = number.toInt

-- ============================================================= the loop

private theorem digit_range {digit : UInt8} :
    ¬(digit < 48 ∨ 57 < digit) ↔ 48 ≤ digit ∧ digit ≤ 57 := by
  rw [not_or, UInt8.not_lt, UInt8.not_lt]

private theorem le_withDigit (value : Nat) (digit : UInt8) :
    value ≤ withDigit value digit := by
  unfold withDigit
  omega

private theorem le_foldl_withDigit (value : Nat) (digits : Bytes) :
    value ≤ digits.foldl withDigit value := by
  induction digits generalizing value with
  | nil => exact Nat.le_refl _
  | cons digit rest ih =>
      exact Nat.le_trans (le_withDigit value digit) (ih _)

/-- A number of 64 bits never makes the sum smaller. -/
theorem neverShrinks_of_lt {value : Nat} {digits : Bytes}
    (h : digits.foldl withDigit value < 2 ^ 64) :
    NeverShrinks value digits := by
  induction digits generalizing value with
  | nil => trivial
  | cons digit rest ih =>
      have hnext : withDigit value digit < 2 ^ 64 :=
        Nat.lt_of_le_of_lt (le_foldl_withDigit _ rest) h
      have hle := le_withDigit value digit
      refine ⟨?_, ih h⟩
      rw [Nat.mod_eq_of_lt hnext, Nat.mod_eq_of_lt (by omega)]
      exact hle

/-- The next sum, as the loop computes it. -/
theorem toNat_nextSum (sum : UInt64) {digit : UInt8} {value : Nat}
    (hsum : sum.toNat = value % 2 ^ 64) (hdigit : 48 ≤ digit) :
    (sum * 10 + (digit - 48).toUInt64).toNat
      = withDigit value digit % 2 ^ 64 := by
  have hsub : (digit - 48).toNat = digit.toNat - 48 :=
    UInt8.toNat_sub_of_le _ _ hdigit
  rw [UInt64.toNat_add, UInt64.toNat_mul, UInt8.toNat_toUInt64, hsub, hsum]
  unfold withDigit
  simp only [UInt64.reduceToNat]
  omega

/-- The loop accepts digits that never make the sum smaller, and returns
the sum. -/
theorem parseDigits_ok {invalid overflows : Status} {sum : UInt64}
    {value : Nat} {digits : Bytes} {result : UInt64}
    (hsum : sum.toNat = value % 2 ^ 64) :
    parseDigits invalid overflows sum digits = .ok result
      ↔ (∀ digit ∈ digits, 48 ≤ digit ∧ digit ≤ 57)
        ∧ NeverShrinks value digits
        ∧ result.toNat = digits.foldl withDigit value % 2 ^ 64 := by
  induction digits generalizing sum value with
  | nil =>
      simp only [parseDigits, NeverShrinks, Except.ok.injEq, List.foldl_nil,
        ← hsum, UInt64.toNat_inj]
      simp [eq_comm]
  | cons digit rest ih =>
      rw [parseDigits]
      by_cases hdigit : digit < 48 ∨ 57 < digit
      · rw [if_pos hdigit]
        refine iff_of_false (fun h => by cases h) fun h => ?_
        exact digit_range.2 (h.1 digit List.mem_cons_self) hdigit
      · rw [if_neg hdigit]
        have hrange := digit_range.1 hdigit
        have hnext := toNat_nextSum sum hsum hrange.1
        by_cases hshrinks : sum * 10 + (digit - 48).toUInt64 < sum
        · rw [if_pos hshrinks]
          rw [UInt64.lt_iff_toNat_lt, hnext, hsum] at hshrinks
          refine iff_of_false (fun h => by cases h) fun h => ?_
          exact Nat.not_le_of_lt hshrinks h.2.1.1
        · rw [if_neg hshrinks, ih hnext]
          rw [UInt64.lt_iff_toNat_lt, hnext, hsum, Nat.not_lt] at hshrinks
          rw [List.forall_mem_cons]
          constructor
          · rintro ⟨hrest, hgrows, hresult⟩
            exact ⟨⟨hrange, hrest⟩, ⟨hshrinks, hgrows⟩, hresult⟩
          · rintro ⟨⟨-, hrest⟩, ⟨-, hgrows⟩, hresult⟩
            exact ⟨hrest, hgrows, hresult⟩

/-- From nothing on. -/
theorem parseDigits_zero {invalid overflows : Status} {digits : Bytes}
    (hnonempty : digits ≠ []) {result : UInt64} :
    parseDigits invalid overflows 0 digits = .ok result
      ↔ IsDecimal digits ∧ NeverShrinks 0 digits
        ∧ result.toNat = decimalValue digits % 2 ^ 64 := by
  have hsum : (0 : UInt64).toNat = 0 % 2 ^ 64 := by decide
  rw [parseDigits_ok hsum]
  unfold IsDecimal decimalValue
  simp only [ne_eq, hnonempty, not_false_eq_true, true_and]

-- ============================================================= unsigned

private theorem requiredUint64_ok {object : Json} {key : String} {value : Bytes}
    (h : object.find? (text key) = some (.string value)) {number : UInt64} :
    requiredUint64 object key = .ok number
      ↔ IsDecimal value ∧ NeverShrinks 0 value
        ∧ number.toNat = decimalValue value % 2 ^ 64 := by
  rw [requiredUint64, requiredString_of_find h, ok_bind]
  by_cases hempty : value = []
  · subst hempty
    refine iff_of_false (fun hok => by cases hok) fun hok => hok.1.1 rfl
  · rw [List.isEmpty_eq_false_iff.2 hempty]
    exact parseDigits_zero hempty

private theorem readsUint64_iff (value : Bytes) :
    ReadsUint64 value ↔ ¬WrapsSilently value := by
  constructor
  · intro hreads hwraps
    obtain ⟨hdecimal, hlarge, hgrows⟩ := hwraps
    have hfind : (Json.object [(text "", .string value)]).find? (text "")
        = some (.string value) := by
      simp [Json.find?]
    have hok := (requiredUint64_ok hfind).2
      ⟨hdecimal, hgrows, UInt64.toNat_ofNat' (n := decimalValue value)⟩
    have hvalue := ((hreads _ _ hfind _).1 hok).2
    have hlt := (UInt64.ofNat (decimalValue value)).toNat_lt
    omega
  · intro hnot object key hfind number
    rw [requiredUint64_ok hfind]
    have hlt := number.toNat_lt
    constructor
    · rintro ⟨hdecimal, hgrows, hvalue⟩
      have hsmall : decimalValue value < 2 ^ 64 := by
        by_contra hlarge
        exact hnot ⟨hdecimal, by omega, hgrows⟩
      exact ⟨hdecimal, by omega⟩
    · rintro ⟨hdecimal, hvalue⟩
      exact ⟨hdecimal, neverShrinks_of_lt (by
        show decimalValue value < 2 ^ 64
        omega), by omega⟩

-- =============================================================== signed

/-- The magnitude the signed reader accepts, as an integer. -/
def signedOf (negative : Bool) (magnitude : UInt64) : Int64 :=
  if negative then
    if magnitude = 0x8000000000000000 then Int64.minValue
    else -magnitude.toInt64
  else magnitude.toInt64

private theorem toInt_signedOf {negative : Bool} {magnitude : UInt64}
    (h : magnitude.toNat ≤ signedBound negative) :
    (signedOf negative magnitude).toInt
      = if negative then -(magnitude.toNat : Int) else magnitude.toNat := by
  have hcast : magnitude.toInt64 = Int64.ofInt magnitude.toNat := by
    rw [Int64.ofInt_eq_ofNat]
    show _ = (UInt64.ofNat magnitude.toNat).toInt64
    rw [UInt64.ofNat_toNat]
  unfold signedOf
  unfold signedBound at h
  cases negative with
  | false =>
      simp only [Bool.false_eq_true, if_false] at h ⊢
      rw [hcast, Int64.toInt_ofInt_of_le (by omega) (by omega)]
  | true =>
      simp only [if_true] at h ⊢
      split
      · next hmin =>
          rw [hmin]
          decide
      · next hmin =>
          have hne : magnitude.toNat ≠ 2 ^ 63 := fun heq =>
            hmin (UInt64.toNat_inj.1 heq)
          rw [hcast, ← Int64.ofInt_neg,
            Int64.toInt_ofInt_of_le (by omega) (by omega)]

/-- The checks `ParseSigned` ends with. -/
def checkSigned (negative : Bool) (magnitude : UInt64) :
    Except Status Int64 :=
  if (!negative && decide (0x7FFFFFFFFFFFFFFF < magnitude))
      || (negative && decide (0x8000000000000000 < magnitude)) then
    .error (.invalid "plan signed integer string overflows")
  else .ok (signedOf negative magnitude)

theorem parseSigned_eq {value : Bytes} (h : magnitudeDigits value ≠ []) :
    parseSigned value
      = parseDigits (.invalid "plan signed integer string is invalid")
          (.invalid "plan signed integer string overflows") 0
          (magnitudeDigits value)
        >>= checkSigned (isNegative value) := by
  have hvalue : value ≠ [] := by
    rintro rfl
    exact h rfl
  have hdigits : (magnitudeDigits value).isEmpty = false :=
    List.isEmpty_eq_false_iff.2 h
  rw [parseSigned, List.isEmpty_eq_false_iff.2 hvalue,
    if_neg Bool.false_ne_true]
  show (if (magnitudeDigits value).isEmpty then _ else _) = _
  rw [hdigits, if_neg Bool.false_ne_true]
  congr 1
  funext magnitude
  unfold checkSigned signedOf isNegative
  split
  · rfl
  · split
    · split <;> rfl
    · rfl

private theorem checkSigned_ok {negative : Bool} {magnitude : UInt64}
    {number : Int64} :
    checkSigned negative magnitude = .ok number
      ↔ magnitude.toNat ≤ signedBound negative
        ∧ signedOf negative magnitude = number := by
  have hrange : ((!negative && decide (0x7FFFFFFFFFFFFFFF < magnitude))
      || (negative && decide (0x8000000000000000 < magnitude))) = false
        ↔ magnitude.toNat ≤ signedBound negative := by
    unfold signedBound
    cases negative with
    | false =>
        simp [UInt64.le_iff_toNat_le]
    | true =>
        simp [UInt64.le_iff_toNat_le]
  unfold checkSigned
  split
  · next hout =>
      rw [← hrange, hout]
      exact iff_of_false (fun h => by cases h) fun h => by cases h.1
  · next hin =>
      rw [← hrange, Bool.eq_false_of_not_eq_true hin, Except.ok.injEq]
      simp

/-- `ParseSigned`, by what it makes of the sign and the digits. -/
theorem parseSigned_ok {value : Bytes} {number : Int64} :
    parseSigned value = .ok number
      ↔ IsDecimal (magnitudeDigits value)
        ∧ NeverShrinks 0 (magnitudeDigits value)
        ∧ ∃ magnitude : UInt64,
          magnitude.toNat = decimalValue (magnitudeDigits value) % 2 ^ 64
          ∧ magnitude.toNat ≤ signedBound (isNegative value)
          ∧ signedOf (isNegative value) magnitude = number := by
  by_cases hempty : magnitudeDigits value = []
  · -- nothing, or a minus sign alone
    refine iff_of_false ?_ fun h => h.1.1 hempty
    cases value with
    | nil => exact fun h => by cases h
    | cons byte rest =>
        intro h
        have hdigits : (magnitudeDigits (byte :: rest)).isEmpty = true :=
          List.isEmpty_iff.2 hempty
        rw [parseSigned, List.isEmpty_cons, if_neg Bool.false_ne_true] at h
        replace h : (if (magnitudeDigits (byte :: rest)).isEmpty then
          _ else _) = _ := h
        rw [hdigits, if_pos rfl] at h
        cases h
  · rw [parseSigned_eq hempty, bind_ok]
    simp only [parseDigits_zero hempty, checkSigned_ok]
    constructor
    · rintro ⟨magnitude, ⟨hdecimal, hgrows, hsum⟩, hle, hnumber⟩
      exact ⟨hdecimal, hgrows, magnitude, hsum, hle, hnumber⟩
    · rintro ⟨hdecimal, hgrows, magnitude, hsum, hle, hnumber⟩
      exact ⟨magnitude, ⟨hdecimal, hgrows, hsum⟩, hle, hnumber⟩

private theorem readsSigned_iff (value : Bytes) :
    ReadsSigned value ↔ ¬WrapsIntoRange value := by
  have hinteger : integerValue value = if isNegative value then
      -(decimalValue (magnitudeDigits value) : Int)
    else decimalValue (magnitudeDigits value) := rfl
  constructor
  · intro hreads hwraps
    obtain ⟨⟨hdecimal, hlarge, hgrows⟩, hle⟩ := hwraps
    rw [← UInt64.toNat_ofNat'] at hle
    have hok := parseSigned_ok.2 ⟨hdecimal, hgrows,
      UInt64.ofNat (decimalValue (magnitudeDigits value)),
      UInt64.toNat_ofNat', hle, rfl⟩
    have hvalue := ((hreads _).1 hok).2
    rw [toInt_signedOf hle, hinteger] at hvalue
    have hlt := (UInt64.ofNat (decimalValue (magnitudeDigits value))).toNat_lt
    split at hvalue <;> omega
  · intro hnot number
    rw [parseSigned_ok]
    constructor
    · rintro ⟨hdecimal, hgrows, magnitude, hsum, hle, rfl⟩
      have hsmall : decimalValue (magnitudeDigits value) < 2 ^ 64 := by
        by_contra hlarge
        exact hnot ⟨⟨hdecimal, by omega, hgrows⟩, hsum ▸ hle⟩
      rw [Nat.mod_eq_of_lt hsmall] at hsum
      rw [toInt_signedOf hle, hinteger, hsum]
      exact ⟨hdecimal, rfl⟩
    · rintro ⟨hdecimal, hvalue⟩
      have hlower := number.le_toInt
      have hupper := number.toInt_lt
      have hle : decimalValue (magnitudeDigits value)
          ≤ signedBound (isNegative value) := by
        rw [hinteger] at hvalue
        unfold signedBound
        cases hneg : isNegative value with
        | false =>
            simp only [hneg, Bool.false_eq_true, if_false] at hvalue ⊢
            omega
        | true =>
            simp only [hneg, if_true] at hvalue ⊢
            omega
      have hbound : signedBound (isNegative value) ≤ 2 ^ 63 := by
        unfold signedBound
        split <;> omega
      have hsum : (UInt64.ofNat (decimalValue (magnitudeDigits value))).toNat
          = decimalValue (magnitudeDigits value) := by
        rw [UInt64.toNat_ofNat']
        omega
      refine ⟨hdecimal, neverShrinks_of_lt (by
        show decimalValue (magnitudeDigits value) < 2 ^ 64
        omega), _, UInt64.toNat_ofNat', by rw [hsum]; exact hle, ?_⟩
      rw [← Int64.toInt_inj, toInt_signedOf (by rw [hsum]; exact hle), hsum,
        ← hvalue, hinteger]

-- ======================================================== exact readings

/-- A string is read exactly, or refused, unless it is a number of more
than 64 bits at which no digit makes the sum smaller; the signed reader
errs only where the remainder also has the magnitude of a signed integer. -/
theorem integerStrings_exact (value : Bytes) :
    (ReadsUint64 value ↔ ¬WrapsSilently value)
      ∧ (ReadsSigned value ↔ ¬WrapsIntoRange value) :=
  ⟨readsUint64_iff value, readsSigned_iff value⟩

/-- A size and a time that are read as other numbers. -/
theorem integerStrings_wrapped :
    ¬ReadsUint64 (text "30744573456182586030")
      ∧ ¬ReadsSigned (text "25000000000000000000") := by
  constructor
  · intro hreads
    have hread := (hreads
      (.object [(text "size", .string (text "30744573456182586030"))])
      "size" rfl 12297829382473034414).1 rfl
    exact absurd hread.2 (by decide +kernel)
  · intro hreads
    have hread := (hreads 6553255926290448384).1 rfl
    exact absurd hread.2 (by decide +kernel)

end PhotoBridge
