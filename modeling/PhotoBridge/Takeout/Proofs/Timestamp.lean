/-
What becomes of `photoTakenTime.timestamp`. The text of a string or an
integer is read into 64 bits (`fromChars_ok`), and seconds become
nanoseconds unless that overflows (`unixSecondsToNanoseconds_eq`). Both are
exact or report an error; what wraps is the step before them, which takes
an unsigned integer of the JSON library for a signed one
(`numberInteger_ok`).
-/
import PhotoBridge.Plan.Proofs.Integers
import PhotoBridge.Takeout.Parser

namespace PhotoBridge.Takeout

open JsonText

-- ================================================================ integers

private theorem digitsValue_ok {digits : Bytes} {n : Nat} :
    digitsValue digits = some n
      ↔ IsDecimal digits ∧ decimalValue digits = n := by
  unfold digitsValue IsDecimal
  simp only [List.all_eq_true, decide_eq_true_eq]
  split
  · rename_i hdecimal
    simp only [Option.some.injEq]
    exact ⟨fun h => ⟨hdecimal, h⟩, fun h => h.2⟩
  · rename_i hnot
    exact iff_of_false nofun fun h => hnot h.1

theorem decimalValue_decimal (n : Nat) : decimalValue (decimal n) = n := by
  have hdigit : ∀ d < 10, (UInt8.ofNat (48 + d)).toNat - 48 = d := by decide
  induction n using Nat.strongRecOn with
  | ind n ih =>
      have hlast := hdigit (n % 10) (Nat.mod_lt n (by omega))
      rw [decimal_eq, decimalValue, List.foldl_append]
      by_cases hsmall : n < 10
      · rw [if_pos hsmall]
        simp only [List.foldl_nil, List.foldl_cons, withDigit, hlast]
        omega
      · have hfront := ih (n / 10) (by omega)
        rw [decimalValue] at hfront
        rw [if_neg hsmall, hfront]
        simp only [List.foldl_nil, List.foldl_cons, withDigit, hlast]
        omega

private theorem isDecimal_decimal (n : Nat) : IsDecimal (decimal n) :=
  ⟨decimal_ne_nil n, fun _ h => mem_decimal h⟩

/-- A text that starts with a minus sign, or does not. -/
theorem sign_cases (raw : Bytes) :
    (∃ digits, raw = 45 :: digits) ∨ ∀ digits, raw ≠ 45 :: digits := by
  cases raw with
  | nil => exact .inr nofun
  | cons byte rest =>
      by_cases hbyte : byte = 45
      · exact .inl ⟨rest, by rw [hbyte]⟩
      · exact .inr fun digits heq => hbyte (List.cons.inj heq).1

private theorem unsigned_eq {raw : Bytes} (h : ∀ digits, raw ≠ 45 :: digits) :
    isNegative raw = false ∧ magnitudeDigits raw = raw := by
  have hnegative : isNegative raw = false := by
    cases raw with
    | nil => rfl
    | cons byte rest =>
        have hbyte : byte ≠ 45 := fun heq => h rest (by rw [heq])
        simpa [isNegative] using hbyte
  refine ⟨hnegative, ?_⟩
  rw [magnitudeDigits, hnegative]
  rfl

/-- `std::from_chars` reads the integers of 64 bits. -/
theorem fromChars_ok {raw : Bytes} {seconds : Int64} :
    fromChars raw = some seconds
      ↔ IsDecimal (magnitudeDigits raw) ∧ integerValue raw = seconds.toInt := by
  have hlower := seconds.le_toInt
  have hupper := seconds.toInt_lt
  rcases sign_cases raw with ⟨digits, rfl⟩ | hunsigned
  · have hvalue : integerValue (45 :: digits) = -(decimalValue digits : Int) :=
      rfl
    have hdigits : magnitudeDigits (45 :: digits) = digits := rfl
    rw [hvalue, hdigits, fromChars]
    simp only [Option.bind_eq_bind, Option.bind_eq_some_iff, digitsValue_ok]
    constructor
    · rintro ⟨n, ⟨hdecimal, rfl⟩, hrange⟩
      split at hrange
      · cases hrange
        rw [Int64.toInt_ofInt_of_le (by omega) (by omega)]
        exact ⟨hdecimal, rfl⟩
      · cases hrange
    · rintro ⟨hdecimal, hseconds⟩
      refine ⟨_, ⟨hdecimal, rfl⟩, ?_⟩
      rw [if_pos (by omega), hseconds, Int64.ofInt_toInt]
  · obtain ⟨hnegative, hdigits⟩ := unsigned_eq hunsigned
    have hvalue : integerValue raw = decimalValue raw := by
      rw [integerValue, hnegative, hdigits]
      rfl
    rw [hvalue, hdigits, fromChars.eq_2 raw (fun digits heq => hunsigned digits heq)]
    simp only [Option.bind_eq_bind, Option.bind_eq_some_iff, digitsValue_ok]
    constructor
    · rintro ⟨n, ⟨hdecimal, rfl⟩, hrange⟩
      split at hrange
      · cases hrange
        rw [← Int64.ofInt_eq_ofNat, Int64.toInt_ofInt_of_le (by omega) (by omega)]
        exact ⟨hdecimal, rfl⟩
      · cases hrange
    · rintro ⟨hdecimal, hseconds⟩
      refine ⟨_, ⟨hdecimal, rfl⟩, ?_⟩
      rw [if_pos (by omega), ← Int64.ofInt_eq_ofNat, hseconds, Int64.ofInt_toInt]

/-- An integer of the JSON library has 64 bits, signed or unsigned; it is
handed out as a signed one. -/
theorem numberInteger_ok {literal : Bytes} {number : Int64} :
    numberInteger literal = some number
      ↔ IsDecimal (magnitudeDigits literal)
        ∧ -2 ^ 63 ≤ integerValue literal ∧ integerValue literal < 2 ^ 64
        ∧ number = Int64.ofInt (integerValue literal) := by
  rcases sign_cases literal with ⟨digits, rfl⟩ | hunsigned
  · have hvalue : integerValue (45 :: digits) = -(decimalValue digits : Int) :=
      rfl
    have hdigits : magnitudeDigits (45 :: digits) = digits := rfl
    rw [hvalue, hdigits, numberInteger]
    simp only [Option.bind_eq_bind, Option.bind_eq_some_iff, digitsValue_ok]
    constructor
    · rintro ⟨n, ⟨hdecimal, rfl⟩, hrange⟩
      split at hrange
      · cases hrange
        exact ⟨hdecimal, by omega, by omega, rfl⟩
      · cases hrange
    · rintro ⟨hdecimal, hlower, -, rfl⟩
      refine ⟨_, ⟨hdecimal, rfl⟩, ?_⟩
      rw [if_pos (by omega)]
  · obtain ⟨hnegative, hdigits⟩ := unsigned_eq hunsigned
    have hvalue : integerValue literal = decimalValue literal := by
      rw [integerValue, hnegative, hdigits]
      rfl
    have hcast : ∀ n : Nat, (UInt64.ofNat n).toInt64 = Int64.ofInt n := by
      intro n
      rw [Int64.ofInt_eq_ofNat]
      rfl
    rw [hvalue, hdigits,
      numberInteger.eq_2 literal fun digits heq => hunsigned digits heq]
    simp only [Option.bind_eq_bind, Option.bind_eq_some_iff, digitsValue_ok,
      hcast]
    constructor
    · rintro ⟨n, ⟨hdecimal, rfl⟩, hrange⟩
      split at hrange
      · cases hrange
        exact ⟨hdecimal, by omega, by omega, rfl⟩
      · cases hrange
    · rintro ⟨hdecimal, -, hupper, rfl⟩
      refine ⟨_, ⟨hdecimal, rfl⟩, ?_⟩
      rw [if_pos (by omega)]

/-- `std::from_chars` undoes `std::to_string`. -/
theorem fromChars_signedDecimal (value : Int64) :
    fromChars (signedDecimal value) = some value := by
  rw [fromChars_ok, signedDecimal_eq]
  by_cases hneg : value.toInt < 0
  · rw [if_pos hneg]
    have hvalue : integerValue (45 :: decimal value.toInt.natAbs)
        = -(decimalValue (decimal value.toInt.natAbs) : Int) := rfl
    rw [hvalue, decimalValue_decimal]
    exact ⟨isDecimal_decimal _, by omega⟩
  · rw [if_neg hneg]
    have hunsigned : ∀ digits, decimal value.toInt.natAbs ≠ 45 :: digits :=
      fun digits heq => head_decimal_ne value.toInt.natAbs (by rw [heq]; rfl)
    obtain ⟨hnegative, hdigits⟩ := unsigned_eq hunsigned
    rw [integerValue, hnegative, hdigits, if_neg Bool.false_ne_true,
      decimalValue_decimal]
    exact ⟨isDecimal_decimal _, by omega⟩

-- ============================================================= nanoseconds

/-- The seconds whose nanoseconds fit 64 bits. -/
def FitsNanoseconds (seconds : Int) : Prop :=
  -2 ^ 63 ≤ seconds * 10 ^ 9 ∧ seconds * 10 ^ 9 < 2 ^ 63

instance (seconds : Int) : Decidable (FitsNanoseconds seconds) :=
  inferInstanceAs (Decidable (_ ∧ _))

/-- Seconds are multiplied, or there is an error. -/
theorem unixSecondsToNanoseconds_ok {raw : Bytes} {unixNs : Int64} :
    unixSecondsToNanoseconds raw = .ok unixNs
      ↔ IsDecimal (magnitudeDigits raw)
        ∧ integerValue raw * 10 ^ 9 = unixNs.toInt := by
  have hmax : (Int64.maxValue / 1000000000).toInt = 9223372036 := by decide
  have hmin : (Int64.minValue / 1000000000).toInt = -9223372036 := by decide
  have hthousand : (1000000000 : Int64).toInt = 10 ^ 9 := by decide
  have hlower := unixNs.le_toInt
  have hupper := unixNs.toInt_lt
  unfold unixSecondsToNanoseconds
  simp only
  cases hread : fromChars raw with
  | none =>
      refine iff_of_false nofun fun h => ?_
      have hsome := fromChars_ok.2 (show _ ∧ integerValue raw
        = (Int64.ofInt (integerValue raw)).toInt from
          ⟨h.1, (Int64.toInt_ofInt_of_le (by omega) (by omega)).symm⟩)
      rw [hread] at hsome
      cases hsome
  | some seconds =>
      obtain ⟨hdecimal, hvalue⟩ := fromChars_ok.1 hread
      simp only [Bool.or_eq_true, decide_eq_true_eq, Int64.lt_iff_toInt_lt,
        hmax, hmin, hdecimal, true_and, hvalue]
      split
      · rename_i hover
        exact iff_of_false nofun fun h => by omega
      · rename_i hfits
        have hproduct : (seconds * 1000000000).toInt = seconds.toInt * 10 ^ 9 := by
          rw [Int64.toInt_mul, hthousand]
          exact Int.bmod_eq_of_le (by omega) (by omega)
        rw [← hproduct, Int64.toInt_inj, Except.ok.injEq]

-- ============================================================= the outcomes

/-- One candidate for the taken time, and it is at these seconds. -/
structure TakenAt (seconds : Int) (added : TakeoutParseResult) : Prop where
  errors : added.errors = []
  candidate : ∃ candidate time unixNs, added.candidates = [candidate]
    ∧ candidate.field = .takenTime ∧ candidate.value = .timeCandidate time
    ∧ time.value = .absoluteTime unixNs ∧ unixNs.toInt = seconds * 10 ^ 9

/-- One error, and no candidate. -/
structure Reported (added : TakeoutParseResult) : Prop where
  candidates : added.candidates = []
  error : ∃ error, added.errors = [error]

/-- The integer a JSON integer is, or a string consists of. -/
def statedSeconds : Json → Option Int
  | .string raw | .number raw =>
      if IsDecimal (magnitudeDigits raw) then some (integerValue raw) else none
  | _ => none

/-- What is stated is taken exactly if its nanoseconds fit 64 bits, and
anything else is reported. -/
def ExactOrReported (timestamp : Json) (added : TakeoutParseResult) : Prop :=
  match statedSeconds timestamp with
  | some seconds =>
      if FitsNanoseconds seconds then TakenAt seconds added else Reported added
  | none => Reported added

/-- A JSON integer just below `2 ^ 64`. -/
def WrapsTimestamp (timestamp : Json) : Prop :=
  ∃ literal seconds, timestamp = .number literal
    ∧ statedSeconds timestamp = some seconds
    ∧ 2 ^ 64 - 9223372036 ≤ seconds ∧ seconds < 2 ^ 64

theorem TakenAt.not_reported {seconds : Int} {added : TakeoutParseResult}
    (h : TakenAt seconds added) : ¬Reported added := by
  rintro ⟨hnone, -⟩
  obtain ⟨candidate, -, -, hcandidates, -⟩ := h.candidate
  rw [hnone] at hcandidates
  cases hcandidates

private theorem reported_addError (path : RelativePath) (code : String)
    (message : Bytes) : Reported (addError path code message) :=
  ⟨rfl, _, rfl⟩

private theorem takenAt_addCandidate {asset : PhysicalAsset} {raw : Bytes}
    {unixNs : Int64} {seconds : Int} (evidence : Bytes) (hraw : raw ≠ [])
    (hvalue : seconds * 10 ^ 9 = unixNs.toInt) :
    TakenAt seconds (addCandidate asset .takenTime
      (.timeCandidate { value := .absoluteTime unixNs, rawValue := raw })
      "takeout.json.photoTakenTime.timestamp.v1" evidence) := by
  have hrule : isMetadataRuleCompatible googleTakeoutMetadataRuleset .takenTime
      .googleTakeoutJson (text "takeout.json.photoTakenTime.timestamp.v1")
        = true := by decide
  have hvalid : validateTimeCandidate
      { value := .absoluteTime unixNs, rawValue := raw } = .ok () := by
    simp [validateTimeCandidate, List.isEmpty_eq_false_iff.2 hraw]
  unfold addCandidate
  simp only [hrule, isMetadataValueCompatible, MetadataValue.kind,
    checkTakenTime, hvalid, Bool.not_true, Bool.false_eq_true, if_false,
    beq_self_eq_true]
  exact ⟨rfl, _, _, unixNs, rfl, rfl, rfl, rfl, hvalue.symm⟩

private theorem extractTimestamp_string (asset : PhysicalAsset) (raw : Bytes) :
    ExactOrReported (.string raw) (extractTimestamp asset (.string raw)) := by
  unfold ExactOrReported statedSeconds extractTimestamp
  simp only [rawTimestamp]
  cases hns : unixSecondsToNanoseconds raw with
  | ok unixNs =>
      obtain ⟨hdecimal, hvalue⟩ := unixSecondsToNanoseconds_ok.1 hns
      have hlower := unixNs.le_toInt
      have hupper := unixNs.toInt_lt
      have hraw : raw ≠ [] := by
        rintro rfl
        exact hdecimal.1 rfl
      rw [if_pos hdecimal]
      simp only
      rw [if_pos ⟨by omega, by omega⟩]
      exact takenAt_addCandidate _ hraw hvalue
  | error e =>
      simp only
      split
      · rename_i seconds hstated
        split at hstated
        · rename_i hdecimal
          cases hstated
          rw [if_neg]
          · exact reported_addError _ _ _
          · rintro ⟨hlower, hupper⟩
            have hok := unixSecondsToNanoseconds_ok.2 ⟨hdecimal,
              (Int64.toInt_ofInt_of_le (by omega) (by omega)).symm⟩
            rw [hns] at hok
            cases hok
        · cases hstated
      · exact reported_addError _ _ _

private theorem statedSeconds_signedDecimal (value : Int64) :
    statedSeconds (.string (signedDecimal value)) = some value.toInt := by
  obtain ⟨hdecimal, hvalue⟩ := fromChars_ok.1 (fromChars_signedDecimal value)
  rw [statedSeconds, if_pos hdecimal, hvalue]

/-- An integer is taken exactly, or reported, unless it wraps. -/
theorem extractTimestamp_number (asset : PhysicalAsset) (literal : Bytes) :
    ExactOrReported (.number literal) (extractTimestamp asset (.number literal))
      ↔ ¬WrapsTimestamp (.number literal) := by
  by_cases hdecimal : IsDecimal (magnitudeDigits literal)
  -- no integer is stated, and none is read
  case neg =>
    have hstated : statedSeconds (.number literal) = none := if_neg hdecimal
    have hread : numberInteger literal = none :=
      Option.eq_none_iff_forall_ne_some.2 fun number hsome =>
        hdecimal (numberInteger_ok.1 hsome).1
    refine iff_of_true ?_ ?_
    · rw [ExactOrReported, hstated, extractTimestamp, rawTimestamp, hread]
      exact reported_addError _ _ _
    · rintro ⟨_, seconds, -, hseconds, -⟩
      rw [hstated] at hseconds
      cases hseconds
  have hstated : statedSeconds (.number literal) = some (integerValue literal) :=
    if_pos hdecimal
  have hwraps : WrapsTimestamp (.number literal)
      ↔ 2 ^ 64 - 9223372036 ≤ integerValue literal
        ∧ integerValue literal < 2 ^ 64 := by
    constructor
    · rintro ⟨_, seconds, -, hseconds, hrange⟩
      rw [hstated] at hseconds
      cases hseconds
      exact hrange
    · exact fun hrange => ⟨literal, _, rfl, hstated, hrange⟩
  rw [hwraps, ExactOrReported, hstated]
  simp only
  -- beyond both ranges the code reads none either, and says so
  cases hread : numberInteger literal with
  | none =>
      have hrange : ¬(-2 ^ 63 ≤ integerValue literal
          ∧ integerValue literal < 2 ^ 64) := fun hrange => by
        have hsome := numberInteger_ok.2 ⟨hdecimal, hrange.1, hrange.2, rfl⟩
        rw [hread] at hsome
        cases hsome
      have hfits : ¬FitsNanoseconds (integerValue literal) := fun hfits =>
        hrange ⟨by have := hfits.1; omega, by have := hfits.2; omega⟩
      refine iff_of_true ?_ fun h => hrange ⟨by omega, h.2⟩
      rw [if_neg hfits, extractTimestamp, rawTimestamp, hread]
      exact reported_addError _ _ _
  -- within them it reads a string, as it would from one
  | some number =>
      obtain ⟨-, hlower, hupper, rfl⟩ := numberInteger_ok.1 hread
      have hadded : extractTimestamp asset (.number literal)
          = extractTimestamp asset
            (.string (signedDecimal (Int64.ofInt (integerValue literal)))) := by
        simp only [extractTimestamp, rawTimestamp, hread, Option.map_some]
      have hstring := extractTimestamp_string asset
        (signedDecimal (Int64.ofInt (integerValue literal)))
      rw [ExactOrReported, statedSeconds_signedDecimal] at hstring
      rw [hadded]
      generalize extractTimestamp asset _ = added at hstring ⊢
      simp only at hstring
      by_cases hsmall : integerValue literal < 2 ^ 63
      · rw [Int64.toInt_ofInt_of_le (by omega) hsmall] at hstring
        exact iff_of_true hstring (by omega)
      · -- an unsigned integer that is no signed one comes out negative
        have hwrapped : (Int64.ofInt (integerValue literal)).toInt
            = integerValue literal - 2 ^ 64 := by
          have hsize : ((Int64.size : Nat) : Int) = 2 ^ 64 := rfl
          rw [Int64.toInt_ofInt, Int.bmod_def, hsize]
          omega
        have hfits : ¬FitsNanoseconds (integerValue literal) := fun hfits => by
          have := hfits.2
          omega
        rw [hwrapped] at hstring
        rw [if_neg hfits]
        by_cases htaken : FitsNanoseconds (integerValue literal - 2 ^ 64)
        · rw [if_pos htaken] at hstring
          refine iff_of_false hstring.not_reported fun hnot => hnot ?_
          have := htaken.1
          exact ⟨by omega, hupper⟩
        · rw [if_neg htaken] at hstring
          refine iff_of_true hstring fun hrange => htaken ?_
          exact ⟨by omega, by omega⟩

theorem extractTimestamp_iff (asset : PhysicalAsset) (timestamp : Json) :
    ExactOrReported timestamp (extractTimestamp asset timestamp)
      ↔ ¬WrapsTimestamp timestamp := by
  have hother : ∀ json : Json, (∀ literal, json ≠ .number literal) →
      ¬WrapsTimestamp json := by
    rintro json hjson ⟨literal, -, heq, -⟩
    exact hjson literal heq
  cases timestamp with
  | string raw =>
      exact iff_of_true (extractTimestamp_string asset raw) (hother _ nofun)
  | number literal => exact extractTimestamp_number asset literal
  | null => exact iff_of_true (reported_addError _ _ _) (hother _ nofun)
  | bool value => exact iff_of_true (reported_addError _ _ _) (hother _ nofun)
  | array items => exact iff_of_true (reported_addError _ _ _) (hother _ nofun)
  | object members =>
      exact iff_of_true (reported_addError _ _ _) (hother _ nofun)

-- ============================================================== the sidecar

theorem candidates_append (a b : TakeoutParseResult) :
    (a ++ b).candidates = a.candidates ++ b.candidates := rfl

/-- A field's candidate is one for that field. -/
theorem JsonField.extract_field {field : JsonField} {asset : PhysicalAsset}
    {document : Json} {candidate : MetadataCandidate}
    (h : candidate ∈ (field.extract asset document).candidates) :
    candidate.field = field.field := by
  unfold JsonField.extract at h
  split at h
  · cases h
  split at h
  · cases h
  unfold addCandidate at h
  split at h
  · cases h
  split at h
  · cases h
  split at h
  · cases h
  · rw [List.mem_singleton.1 h]

/-- A sidecar with this timestamp and nothing else. -/
def sidecarWith (timestamp : Json) : Json :=
  .object [(text "photoTakenTime", .object [(text "timestamp", timestamp)])]

theorem someSidecar_parsed :
    checkRelativePath (text "photo.json") = .ok [text "photo.json"] := rfl

def someSidecar : PhysicalAsset where
  relativePath := ⟨text "photo.json", [text "photo.json"], someSidecar_parsed⟩
  identity := ⟨1, 2, 3, 4, 5, none⟩
  kind := .sidecarJson
  extension := text "json"

end PhotoBridge.Takeout
