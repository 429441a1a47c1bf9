/-
The texts of an artifact and the readers that undo them: base64, hex
digests, unsigned and signed decimals. All of them are ASCII, so they
are UTF-8 whatever bytes they stand for.

Shifts and masks are read as divisions and remainders of the 24-bit
group; the groups of an encoder and of its decoder then agree by
arithmetic.
-/
import Mathlib.Data.Nat.Bits
import PhotoBridge.Manifest.Tables
import PhotoBridge.Plan.Artifact

namespace PhotoBridge

open JsonText

/-- A step that went well. -/
theorem ok_bind {α β : Type} (value : α) (next : α → Except Status β) :
    (Except.ok value >>= next) = next value := rfl

-- =============================================================== ASCII

/-- A text is its characters, each in UTF-8. -/
private theorem text_ofList (chars : List Char) :
    text (String.ofList chars) = chars.flatMap String.utf8EncodeChar := by
  show (String.ofList chars).toUTF8.data.toList = _
  rw [String.toUTF8_eq_toByteArray, String.toByteArray_ofList, List.utf8Encode]
  simp

/-- A text is in UTF-8. -/
theorem isUtf8_text (s : String) : IsUtf8 (text s) := ⟨s, rfl⟩

/-- The character of an ASCII byte is encoded as that byte. -/
theorem utf8EncodeChar_ascii {b : UInt8} (h : b < 128) :
    String.utf8EncodeChar (Char.ofNat b.toNat) = [b] := by
  have htable : ∀ k, k < 128 →
      String.utf8EncodeChar (Char.ofNat k) = [UInt8.ofNat k] := by decide
  have hk := htable b.toNat (UInt8.lt_iff_toNat_lt.1 h)
  rw [hk, UInt8.ofNat_toNat]

/-- ASCII is in UTF-8. -/
theorem isUtf8_of_ascii {bytes : Bytes} (h : ∀ b ∈ bytes, b < 128) :
    IsUtf8 bytes := by
  refine ⟨String.ofList (bytes.map fun b => Char.ofNat b.toNat), ?_⟩
  show text _ = bytes
  rw [text_ofList, List.flatMap_map]
  induction bytes with
  | nil => rfl
  | cons b rest ih =>
      rw [List.flatMap_cons, utf8EncodeChar_ascii (h b List.mem_cons_self)]
      rw [ih fun c hc => h c (List.mem_cons_of_mem _ hc)]
      rfl

-- ============================================================== base64

/-- The table of the alphabet, read back. -/
private theorem base64Alphabet_table : ∀ k, k < 64 →
    base64Value (base64Alphabet.getD k 0) = some (UInt32.ofNat k)
      ∧ base64Alphabet.getD k 0 ≠ 61 ∧ base64Alphabet.getD k 0 < 128 := by
  decide +kernel

/-- Six bits. -/
private theorem and_63_lt (v : UInt32) : (v &&& 63).toNat < 64 := by
  rw [UInt32.toNat_and]
  exact Nat.lt_of_le_of_lt Nat.and_le_right (by decide)

/-- A character is read back as the six bits it stands for. -/
theorem base64Value_char (v : UInt32) :
    base64Value (base64Char v) = some (v &&& 63) := by
  have h := (base64Alphabet_table _ (and_63_lt v)).1
  rw [UInt32.ofNat_toNat] at h
  exact h

/-- No character of the alphabet is the padding. -/
private theorem base64Char_ne (v : UInt32) : base64Char v ≠ 61 :=
  (base64Alphabet_table _ (and_63_lt v)).2.1

/-- The alphabet is ASCII. -/
private theorem base64Char_ascii (v : UInt32) : base64Char v < 128 :=
  (base64Alphabet_table _ (and_63_lt v)).2.2

/-- Four characters for three bytes, the last group padded. -/
theorem length_base64Encode (value : Bytes) :
    (base64Encode value).length % 4 = 0 := by
  induction value using base64Encode.induct with
  | case1 => simp [base64Encode]
  | case2 a => simp [base64Encode]
  | case3 a b => simp [base64Encode]
  | case4 a b c rest ih =>
      simp only [base64Encode, List.length_cons]
      omega

/-- Base64 is ASCII. -/
theorem base64Encode_ascii (value : Bytes) :
    ∀ c ∈ base64Encode value, c < 128 := by
  induction value using base64Encode.induct with
  | case1 => simp [base64Encode]
  | case2 a => simp [base64Encode, base64Char_ascii]
  | case3 a b => simp [base64Encode, base64Char_ascii]
  | case4 a b c rest ih =>
      simp only [base64Encode, List.mem_cons]
      intro x hx
      rcases hx with rfl | rfl | rfl | rfl | hx
      · exact base64Char_ascii _
      · exact base64Char_ascii _
      · exact base64Char_ascii _
      · exact base64Char_ascii _
      · exact ih x hx

/-- The low six bits, as a remainder. -/
theorem toNat_and_63 (v : UInt32) : (v &&& 63).toNat = v.toNat % 64 := by
  rw [UInt32.toNat_and]
  exact Nat.and_two_pow_sub_one_eq_mod v.toNat 6

/-- Three octets, as one number. -/
theorem toNat_base64Combine (a b c : UInt8) :
    (base64Combine a b c).toNat
      = a.toNat * 65536 + b.toNat * 256 + c.toNat := by
  have ha := a.toNat_lt
  have hb := b.toNat_lt
  have hc := c.toNat_lt
  have hbc : b.toNat <<< 8 ||| c.toNat = b.toNat * 256 + c.toNat := by
    rw [← Nat.shiftLeft_add_eq_or_of_lt (by omega), Nat.shiftLeft_eq]
  have habc : a.toNat <<< 16 ||| (b.toNat * 256 + c.toNat)
      = a.toNat * 65536 + (b.toNat * 256 + c.toNat) := by
    rw [← Nat.shiftLeft_add_eq_or_of_lt (by omega), Nat.shiftLeft_eq]
  simp only [base64Combine, UInt32.toNat_or, UInt32.toNat_shiftLeft,
    UInt8.toNat_toUInt32, UInt32.reduceToNat, Nat.reduceMod]
  rw [Nat.mod_eq_of_lt (by rw [Nat.shiftLeft_eq]; omega)]
  rw [Nat.mod_eq_of_lt (by rw [Nat.shiftLeft_eq]; omega)]
  rw [Nat.or_assoc, hbc, habc]
  omega

/-- The 24 bits put together again. -/
theorem toNat_regroup {p q r s : UInt32} (hp : p.toNat < 64)
    (hq : q.toNat < 64) (hr : r.toNat < 64) (hs : s.toNat < 64) :
    (p <<< 18 ||| q <<< 12 ||| r <<< 6 ||| s).toNat
      = p.toNat * 262144 + q.toNat * 4096 + r.toNat * 64 + s.toNat := by
  have hrs : r.toNat <<< 6 ||| s.toNat = r.toNat * 64 + s.toNat := by
    rw [← Nat.shiftLeft_add_eq_or_of_lt (by omega), Nat.shiftLeft_eq]
  have hqrs : q.toNat <<< 12 ||| (r.toNat * 64 + s.toNat)
      = q.toNat * 4096 + (r.toNat * 64 + s.toNat) := by
    rw [← Nat.shiftLeft_add_eq_or_of_lt (by omega), Nat.shiftLeft_eq]
  have hall : p.toNat <<< 18
        ||| (q.toNat * 4096 + (r.toNat * 64 + s.toNat))
      = p.toNat * 262144 + (q.toNat * 4096 + (r.toNat * 64 + s.toNat)) := by
    rw [← Nat.shiftLeft_add_eq_or_of_lt (by omega), Nat.shiftLeft_eq]
  simp only [UInt32.toNat_or, UInt32.toNat_shiftLeft, UInt32.reduceToNat,
    Nat.reduceMod]
  rw [Nat.mod_eq_of_lt (by rw [Nat.shiftLeft_eq]; omega)]
  rw [Nat.mod_eq_of_lt (by rw [Nat.shiftLeft_eq]; omega)]
  rw [Nat.mod_eq_of_lt (by rw [Nat.shiftLeft_eq]; omega)]
  rw [Nat.or_assoc, Nat.or_assoc, hrs, hqrs, hall]
  omega

/-- Six bits of a number, as a quotient and a remainder. -/
private theorem toNat_sextet (n shift : UInt32) (hshift : shift.toNat < 32) :
    ((n >>> shift) &&& 63).toNat = n.toNat / 2 ^ shift.toNat % 64 := by
  rw [toNat_and_63, UInt32.toNat_shiftRight, Nat.mod_eq_of_lt hshift,
    Nat.shiftRight_eq_div_pow]

/-- The four characters of a group stand for its 24 bits. -/
theorem base64_regroup {n : UInt32} (hn : n.toNat < 2 ^ 24) :
    ((n >>> 18) &&& 63) <<< 18 ||| ((n >>> 12) &&& 63) <<< 12
      ||| ((n >>> 6) &&& 63) <<< 6 ||| (n &&& 63) = n := by
  apply UInt32.toNat_inj.1
  rw [toNat_regroup (and_63_lt _) (and_63_lt _) (and_63_lt _) (and_63_lt _)]
  rw [toNat_sextet n 18 (by decide), toNat_sextet n 12 (by decide),
    toNat_sextet n 6 (by decide), toNat_and_63]
  simp only [UInt32.reduceToNat, Nat.reducePow] at hn ⊢
  omega

/-- Eight bits of a number are an octet. -/
theorem octet_eq {n : UInt32} {a : UInt8} (shift : UInt32)
    (hshift : shift.toNat < 32)
    (h : n.toNat / 2 ^ shift.toNat % 256 = a.toNat) :
    ((n >>> shift) &&& 255).toUInt8 = a := by
  apply UInt8.toNat_inj.1
  have hand : ((n >>> shift) &&& 255).toNat
      = n.toNat / 2 ^ shift.toNat % 256 := by
    rw [UInt32.toNat_and, UInt32.toNat_shiftRight, Nat.mod_eq_of_lt hshift,
      Nat.shiftRight_eq_div_pow]
    exact Nat.and_two_pow_sub_one_eq_mod _ 8
  rw [UInt32.toNat_toUInt8, hand, h]
  exact Nat.mod_eq_of_lt a.toNat_lt

/-- The bytes of a group. -/
theorem base64Combine_octets (a b c : UInt8) :
    (((base64Combine a b c) >>> 16) &&& 255).toUInt8 = a
      ∧ (((base64Combine a b c) >>> 8) &&& 255).toUInt8 = b
      ∧ ((base64Combine a b c) &&& 255).toUInt8 = c := by
  have hn := toNat_base64Combine a b c
  have ha := a.toNat_lt
  have hb := b.toNat_lt
  have hc := c.toNat_lt
  refine ⟨octet_eq 16 (by decide) ?_, octet_eq 8 (by decide) ?_, ?_⟩
  · simp only [UInt32.reduceToNat, Nat.reducePow]
    omega
  · simp only [UInt32.reduceToNat, Nat.reducePow]
    omega
  · have hzero : base64Combine a b c = base64Combine a b c >>> 0 := by
      apply UInt32.toNat_inj.1
      simp
    rw [hzero]
    refine octet_eq 0 (by decide) ?_
    simp only [UInt32.reduceToNat, Nat.reducePow]
    omega

/-- Three octets fit in 24 bits. -/
theorem base64Combine_lt (a b c : UInt8) :
    (base64Combine a b c).toNat < 2 ^ 24 := by
  have hn := toNat_base64Combine a b c
  have ha := a.toNat_lt
  have hb := b.toNat_lt
  have hc := c.toNat_lt
  omega

/-- Padding stands for bits that are zero. -/
theorem base64Combine_low (a b : UInt8) :
    base64Combine a 0 0 >>> 6 &&& 63 = 0 ∧ base64Combine a b 0 &&& 63 = 0 := by
  constructor
  · apply UInt32.toNat_inj.1
    rw [toNat_sextet _ 6 (by decide), toNat_base64Combine]
    simp only [UInt32.reduceToNat, UInt8.reduceToNat, Nat.reducePow]
    omega
  · apply UInt32.toNat_inj.1
    rw [toNat_and_63, toNat_base64Combine]
    simp only [UInt32.reduceToNat, UInt8.reduceToNat]
    omega

/-- The groups of an encoded value are read back. -/
theorem base64Groups_encode (value : Bytes) :
    base64Groups (base64Encode value) = .ok value := by
  induction value using base64Encode.induct with
  | case1 => simp [base64Encode, base64Groups]
  | case2 a =>
      have hgroup := base64_regroup (base64Combine_lt a 0 0)
      rw [(base64Combine_low a 0).1, (base64Combine_low a 0).2] at hgroup
      have hoctets := base64Combine_octets a 0 0
      rw [UInt32.zero_shiftLeft, UInt32.or_zero, UInt32.or_zero] at hgroup
      simp only [base64Encode, base64Groups, base64Value_char, beq_self_eq_true]
      simp [base64Char_ne, hgroup, hoctets]
  | case3 a b =>
      have hgroup := base64_regroup (base64Combine_lt a b 0)
      rw [(base64Combine_low a b).2] at hgroup
      have hoctets := base64Combine_octets a b 0
      simp only [base64Encode, base64Groups, base64Value_char, beq_self_eq_true]
      simp [base64Char_ne, hgroup, hoctets]
  | case4 a b c rest ih =>
      have hgroup := base64_regroup (base64Combine_lt a b c)
      have hoctets := base64Combine_octets a b c
      simp only [base64Encode, base64Groups, base64Value_char]
      simp [base64Char_ne, hgroup, hoctets, ih]

/-- `Base64Decode` undoes `Base64Encode`. -/
theorem base64Decode_base64Encode (value : Bytes) :
    base64Decode (base64Encode value) = .ok value := by
  rw [base64Decode, if_neg (not_not.2 (length_base64Encode value))]
  exact base64Groups_encode value

-- ========================================================== hex digests

/-- The table of the hexadecimal digits, read back. -/
private theorem hexValue_hexDigit : ∀ k, k < 16 →
    hexValue (hexDigit (UInt8.ofNat k)) = some (UInt8.ofNat k)
      ∧ hexDigit (UInt8.ofNat k) < 128 := by
  decide

/-- The two digits of a byte are digits, and stand for it. -/
theorem hexDigits (b : UInt8) :
    hexValue (hexDigit (b >>> 4)) = some (b >>> 4)
      ∧ hexValue (hexDigit (b &&& 15)) = some (b &&& 15)
      ∧ hexDigit (b >>> 4) < 128 ∧ hexDigit (b &&& 15) < 128
      ∧ (b >>> 4) <<< 4 ||| (b &&& 15) = b := by
  have hb := b.toNat_lt
  have hhigh : (b >>> 4).toNat = b.toNat / 16 := by
    rw [UInt8.toNat_shiftRight]
    exact Nat.shiftRight_eq_div_pow _ 4
  have hlow : (b &&& 15).toNat = b.toNat % 16 := by
    rw [UInt8.toNat_and]
    exact Nat.and_two_pow_sub_one_eq_mod _ 4
  have hh := hexValue_hexDigit (b >>> 4).toNat (by omega)
  have hl := hexValue_hexDigit (b &&& 15).toNat (by omega)
  rw [UInt8.ofNat_toNat] at hh hl
  refine ⟨hh.1, hl.1, hh.2, hl.2, ?_⟩
  apply UInt8.toNat_inj.1
  rw [UInt8.toNat_or, UInt8.toNat_shiftLeft, hhigh, hlow]
  show (b.toNat / 16) <<< 4 % 2 ^ 8 ||| b.toNat % 16 = b.toNat
  rw [Nat.mod_eq_of_lt (by rw [Nat.shiftLeft_eq]; omega)]
  rw [← Nat.shiftLeft_add_eq_or_of_lt (by omega), Nat.shiftLeft_eq]
  omega

/-- The two halves of a byte. -/
theorem halves_lt (b : UInt8) :
    (b >>> 4).toNat < 16 ∧ (b &&& 15).toNat < 16 := by
  have hb := b.toNat_lt
  constructor
  · rw [UInt8.toNat_shiftRight, Nat.shiftRight_eq_div_pow]
    simp only [UInt8.reduceToNat, Nat.reduceMod, Nat.reducePow]
    omega
  · rw [UInt8.toNat_and]
    exact Nat.lt_of_le_of_lt Nat.and_le_right (by decide)

/-- A digest is written as its bytes are. -/
theorem toHex_eq (digest : Digest) : digest.toHex = hexEncode digest.bytes :=
  rfl

/-- Hexadecimal text is ASCII. -/
theorem hexEncode_ascii (bytes : Bytes) : ∀ c ∈ hexEncode bytes, c < 128 := by
  intro c hc
  obtain ⟨b, -, hmem⟩ := List.mem_flatMap.1 hc
  have hdigits := hexDigits b
  rcases List.mem_cons.1 hmem with rfl | hmem
  · exact hdigits.2.2.1
  · rw [List.mem_singleton.1 hmem]
    exact hdigits.2.2.2.1

/-- Hexadecimal text is read back. -/
theorem hexBytes_hexEncode (bytes : Bytes) :
    hexBytes (hexEncode bytes) = .ok bytes := by
  induction bytes with
  | nil => simp [hexEncode, hexBytes]
  | cons b rest ih =>
      obtain ⟨hhigh, hlow, -, -, hbyte⟩ := hexDigits b
      show hexBytes (hexDigit (b >>> 4) :: hexDigit (b &&& 15)
        :: hexEncode rest) = _
      simp only [hexBytes, hhigh, hlow, ih]
      rw [hbyte]
      rfl

/-- A byte takes two digits. -/
theorem length_hexEncode (bytes : Bytes) :
    (hexEncode bytes).length = 2 * bytes.length := by
  induction bytes with
  | nil => rfl
  | cons b rest ih =>
      show (hexEncode rest).length + 1 + 1 = _
      rw [ih, List.length_cons]
      omega

/-- `Digest::FromHex` undoes `Digest::ToHex`. -/
theorem fromHex_toHex (digest : Digest) :
    Digest.fromHex digest.toHex = .ok digest := by
  have hlength : digest.toHex.length = 64 := by
    rw [toHex_eq, length_hexEncode, digest.size]
  rw [Digest.fromHex, dif_pos hlength]
  have hbytes : hexBytes digest.toHex = .ok digest.bytes :=
    hexBytes_hexEncode digest.bytes
  split
  · next bytes h =>
      rw [hbytes] at h
      cases h
      rfl
  · next e h =>
      rw [hbytes] at h
      cases h

-- ============================================================= decimals

/-- The last digit comes off the end. -/
theorem decimal_eq (n : Nat) :
    decimal n
      = (if n < 10 then [] else decimal (n / 10))
        ++ [UInt8.ofNat (48 + n % 10)] := by
  have hdigit : ∀ d, d < 10 →
      String.utf8EncodeChar (Nat.digitChar d) = [UInt8.ofNat (48 + d)] := by
    decide
  have hdecimal : ∀ m, decimal m
      = (Nat.toDigits 10 m).flatMap String.utf8EncodeChar := by
    intro m
    rw [decimal, Nat.toString_eq_ofList_toDigits, text_ofList]
  rw [hdecimal n, Nat.toDigits_eq_if (by omega)]
  split
  · next hn =>
      rw [List.flatMap_singleton, hdigit n hn, Nat.mod_eq_of_lt hn]
      rfl
  · rw [List.flatMap_append, List.flatMap_singleton,
      hdigit _ (Nat.mod_lt n (by omega)), ← hdecimal]

/-- A number has a digit. -/
theorem decimal_ne_nil (n : Nat) : decimal n ≠ [] := by
  rw [decimal_eq]
  simp

/-- Numbers are told apart by their digits. -/
theorem decimal_inj {m n : Nat} (h : decimal m = decimal n) : m = n := by
  induction m using Nat.strongRecOn generalizing n with
  | ind m ih =>
      rw [decimal_eq m, decimal_eq n] at h
      obtain ⟨hfront, hlast⟩ := List.append_inj' h rfl
      have hdigit : ∀ d < 10, ∀ e < 10,
          UInt8.ofNat (48 + d) = UInt8.ofNat (48 + e) → d = e := by
        decide
      have hmod := hdigit _ (Nat.mod_lt m (by omega)) _
        (Nat.mod_lt n (by omega)) (List.cons.inj hlast).1
      by_cases hm : m < 10
      · by_cases hn : n < 10
        · omega
        · rw [if_pos hm, if_neg hn] at hfront
          exact absurd hfront.symm (decimal_ne_nil _)
      · by_cases hn : n < 10
        · rw [if_neg hm, if_pos hn] at hfront
          exact absurd hfront (decimal_ne_nil _)
        · rw [if_neg hm, if_neg hn] at hfront
          have hdiv := ih (m / 10) (by omega) hfront
          omega

/-- A decimal is digits. -/
theorem mem_decimal {n : Nat} {byte : UInt8} (h : byte ∈ decimal n) :
    48 ≤ byte ∧ byte ≤ 57 := by
  induction n using Nat.strongRecOn with
  | ind n ih =>
      rw [decimal_eq] at h
      rcases List.mem_append.1 h with h | h
      · by_cases hn : n < 10
        · rw [if_pos hn] at h
          cases h
        · rw [if_neg hn] at h
          exact ih (n / 10) (by omega) h
      · rw [List.mem_singleton.1 h]
        have hdigit : ∀ d, d < 10 →
            48 ≤ UInt8.ofNat (48 + d) ∧ UInt8.ofNat (48 + d) ≤ 57 := by
          decide
        exact hdigit _ (Nat.mod_lt n (by omega))

section Digits

variable {invalid overflows : Status}

/-- Digits are read one part after the other. -/
theorem parseDigits_append (value : UInt64) (xs ys : Bytes) :
    parseDigits invalid overflows value (xs ++ ys)
      = parseDigits invalid overflows value xs >>= fun read =>
          parseDigits invalid overflows read ys := by
  induction xs generalizing value with
  | nil => rfl
  | cons digit rest ih =>
      simp only [List.cons_append, parseDigits]
      split
      · rfl
      · split
        · rfl
        · exact ih _

/-- A value below `2 ^ 64` is read without overflow. -/
theorem parseDigits_decimal {n : Nat} (hn : n < 2 ^ 64) :
    parseDigits invalid overflows 0 (decimal n) = .ok (UInt64.ofNat n) := by
  induction n using Nat.strongRecOn with
  | ind n ih =>
      have hlast : ∀ m : Nat, m * 10 + n % 10 = n →
          parseDigits invalid overflows (UInt64.ofNat m)
            [UInt8.ofNat (48 + n % 10)] = .ok (UInt64.ofNat n) := by
        intro m hm
        have hdigit : (UInt8.ofNat (48 + n % 10)).toNat = 48 + n % 10 := by
          rw [UInt8.toNat_ofNat']
          omega
        have hrange : ¬(UInt8.ofNat (48 + n % 10) < 48
            ∨ 57 < UInt8.ofNat (48 + n % 10)) := by
          rw [UInt8.lt_iff_toNat_lt, UInt8.lt_iff_toNat_lt, hdigit]
          simp only [UInt8.reduceToNat]
          omega
        have hnext : UInt64.ofNat m * 10
            + (UInt8.ofNat (48 + n % 10) - 48).toUInt64 = UInt64.ofNat n := by
          apply UInt64.toNat_inj.1
          rw [UInt64.toNat_add, UInt64.toNat_mul, UInt8.toNat_toUInt64,
            UInt8.toNat_sub, hdigit, UInt64.toNat_ofNat',
            UInt64.toNat_ofNat']
          simp only [UInt8.reduceToNat, UInt64.reduceToNat]
          omega
        have hgrows : ¬UInt64.ofNat n < UInt64.ofNat m := by
          rw [UInt64.lt_iff_toNat_lt, UInt64.toNat_ofNat',
            UInt64.toNat_ofNat']
          omega
        simp only [parseDigits, if_neg hrange, hnext, if_neg hgrows]
      rw [decimal_eq]
      by_cases hsmall : n < 10
      · rw [if_pos hsmall]
        exact hlast 0 (by omega)
      · rw [if_neg hsmall, parseDigits_append,
          ih (n / 10) (by omega) (by omega)]
        exact hlast (n / 10) (by omega)

/-- A small number in decimal, as `RequiredUint64` reads it. -/
theorem parseDigits_uint64 (value : UInt64) :
    parseDigits invalid overflows 0 (decimal value.toNat) = .ok value := by
  rw [parseDigits_decimal value.toNat_lt, UInt64.ofNat_toNat]

end Digits

-- ====================================================== signed decimals

/-- Two texts, one after the other. -/
theorem text_append (s t : String) : text (s ++ t) = text s ++ text t := by
  simp [text]

/-- A signed value is written as its magnitude, behind a minus sign if it
is negative. -/
theorem signedDecimal_eq (value : Int64) :
    signedDecimal value
      = if value.toInt < 0 then 45 :: decimal value.toInt.natAbs
        else decimal value.toInt.natAbs := by
  have hminus : text "-" = [45] := by decide +kernel
  rw [signedDecimal]
  cases hint : value.toInt with
  | ofNat n =>
      rw [if_neg (by simp)]
      rfl
  | negSucc n =>
      rw [if_pos (Int.negSucc_lt_zero n)]
      show text ("-" ++ toString (n + 1)) = _
      rw [text_append, hminus]
      rfl

/-- Digits are not minus signs. -/
theorem head_decimal_ne (n : Nat) : (decimal n).head? ≠ some 45 := by
  have hdigit : ∀ d, d < 10 → UInt8.ofNat (48 + d) ≠ 45 := by decide
  induction n using Nat.strongRecOn with
  | ind n ih =>
      rw [decimal_eq]
      by_cases hsmall : n < 10
      · rw [if_pos hsmall]
        simpa using hdigit (n % 10) (by omega)
      · rw [if_neg hsmall]
        rw [List.head?_append_of_ne_nil _ (decimal_ne_nil _)]
        exact ih (n / 10) (by omega)

/-- `ParseSigned` undoes `std::to_string`. -/
theorem parseSigned_signedDecimal (value : Int64) :
    parseSigned (signedDecimal value) = .ok value := by
  have hlower := value.le_toInt
  have hupper := value.toInt_lt
  have hmagnitude : (UInt64.ofNat value.toInt.natAbs).toNat
      = value.toInt.natAbs := by
    rw [UInt64.toNat_ofNat']
    omega
  have hread := @parseDigits_decimal
    (.invalid "plan signed integer string is invalid")
    (.invalid "plan signed integer string overflows")
    value.toInt.natAbs (by omega)
  have hnonempty := List.isEmpty_eq_false_iff.2
    (decimal_ne_nil value.toInt.natAbs)
  have hvalue := Int64.ofInt_toInt value
  rw [signedDecimal_eq]
  by_cases hneg : value.toInt < 0
  · rw [if_pos hneg]
    have hrange : ¬(0x8000000000000000 : UInt64)
        < UInt64.ofNat value.toInt.natAbs := by
      rw [UInt64.lt_iff_toNat_lt, hmagnitude]
      simp only [UInt64.reduceToNat]
      omega
    have hresult : -(UInt64.ofNat value.toInt.natAbs).toInt64 = value := by
      show -Int64.ofNat value.toInt.natAbs = value
      rw [← Int64.ofInt_eq_ofNat, ← Int64.ofInt_neg]
      rw [show -(value.toInt.natAbs : Int) = value.toInt by omega, hvalue]
    simp only [parseSigned, List.isEmpty_cons, List.head?_cons,
      beq_self_eq_true, if_true, List.drop_one, List.tail_cons, hnonempty,
      hread, ok_bind]
    simp only [Bool.false_eq_true, if_false, Bool.not_true, Bool.false_and,
      Bool.true_and, Bool.false_or, decide_eq_true_eq, hrange]
    split
    · next hmin =>
        rw [← hresult, hmin]
        rfl
    · rw [hresult]
      rfl
  · rw [if_neg hneg]
    have hrange : ¬(0x7FFFFFFFFFFFFFFF : UInt64)
        < UInt64.ofNat value.toInt.natAbs := by
      rw [UInt64.lt_iff_toNat_lt, hmagnitude]
      simp only [UInt64.reduceToNat]
      omega
    have hresult : (UInt64.ofNat value.toInt.natAbs).toInt64 = value := by
      show Int64.ofNat value.toInt.natAbs = value
      rw [← Int64.ofInt_eq_ofNat]
      rw [show (value.toInt.natAbs : Int) = value.toInt by omega, hvalue]
    have hhead : ((decimal value.toInt.natAbs).head? == some 45) = false :=
      beq_eq_false_iff_ne.2 (head_decimal_ne _)
    simp only [parseSigned, hnonempty, hhead, Bool.false_eq_true, if_false,
      hread, ok_bind]
    simp only [Bool.not_false, Bool.true_and, Bool.false_and, Bool.or_false,
      decide_eq_true_eq, hrange, if_false, hresult]
    rfl

end PhotoBridge
