/-
The two directions of base64 in a plan artifact. Decoding undoes
encoding. Encoding undoes decoding except for one thing `Base64Decode`
never looks at: the bits of the last symbol that lie below the last
decoded byte.

# One group at a time

`base64Groups_ok` says what an accepted group is: two symbols and
`==`, three and `=`, or four, with only the last group padded. Each of
the three is a sum of digits in base 64, cut into bytes; which symbols
the encoder puts back is then arithmetic. They are those that were read,
with the spare bits zero (`withoutSpareBits`).
-/
import PhotoBridge.Plan.Proofs.Text

namespace PhotoBridge

open JsonText

-- ========================================================== one symbol

private theorem base64Value_table : ∀ k, k < 256 →
    (base64Value (UInt8.ofNat k)).all (fun v =>
      decide (v.toNat < 64) && base64Char v == UInt8.ofNat k) = true := by
  decide +kernel

/-- A symbol is the character of its value. -/
private theorem base64Char_value {c : UInt8} {v : UInt32}
    (h : base64Value c = some v) : v.toNat < 64 ∧ base64Char v = c := by
  have htable := base64Value_table c.toNat c.toNat_lt
  rw [UInt8.ofNat_toNat, h] at htable
  simpa using htable

/-- Which numbers are written as a given symbol. -/
theorem base64Char_eq_iff {c : UInt8} {v : UInt32}
    (h : base64Value c = some v) (n : UInt32) :
    base64Char n = c ↔ n.toNat % 64 = v.toNat := by
  obtain ⟨hv, hc⟩ := base64Char_value h
  constructor
  · intro hn
    have hvalue := base64Value_char n
    rw [hn, h] at hvalue
    rw [Option.some.inj hvalue, toNat_and_63]
  · intro hn
    have hand : n &&& 63 = v &&& 63 := by
      apply UInt32.toNat_inj.1
      rw [toNat_and_63, toNat_and_63, hn, Nat.mod_eq_of_lt hv]
    rw [← hc]
    unfold base64Char
    rw [hand]

/-- Which numbers are written alike. -/
private theorem base64Char_inj (n m : UInt32) :
    base64Char n = base64Char m ↔ n.toNat % 64 = m.toNat % 64 := by
  rw [base64Char_eq_iff (base64Value_char m), toNat_and_63]

private theorem base64Value_pad : base64Value 61 = none := by decide

private theorem toNat_octet (n shift : UInt32) (hshift : shift.toNat < 32) :
    ((n >>> shift) &&& 255).toUInt8.toNat
      = n.toNat / 2 ^ shift.toNat % 256 := by
  have hand : ((n >>> shift) &&& 255).toNat
      = n.toNat / 2 ^ shift.toNat % 256 := by
    rw [UInt32.toNat_and, UInt32.toNat_shiftRight, Nat.mod_eq_of_lt hshift,
      Nat.shiftRight_eq_div_pow]
    exact Nat.and_two_pow_sub_one_eq_mod _ 8
  rw [UInt32.toNat_toUInt8, hand]
  exact Nat.mod_eq_of_lt (Nat.mod_lt _ (by decide))

private theorem toNat_lastOctet (n : UInt32) :
    (n &&& 255).toUInt8.toNat = n.toNat % 256 := by
  have hand : (n &&& 255).toNat = n.toNat % 256 := by
    rw [UInt32.toNat_and]
    exact Nat.and_two_pow_sub_one_eq_mod _ 8
  rw [UInt32.toNat_toUInt8, hand]
  exact Nat.mod_eq_of_lt (Nat.mod_lt _ (by decide))

private theorem toNat_shift (n shift : UInt32) (hshift : shift.toNat < 32) :
    (n >>> shift).toNat = n.toNat / 2 ^ shift.toNat := by
  rw [UInt32.toNat_shiftRight, Nat.mod_eq_of_lt hshift,
    Nat.shiftRight_eq_div_pow]

-- =========================================================== one group

/-- The bits of an accepted text that no decoded byte comes from: the
low four of the symbol before `==`, the low two of the one before `=`. -/
def spareBits : Bytes → UInt32
  | _ :: b :: c :: d :: rest =>
      if c = 61 then (base64Value b).getD 0 &&& 15
      else if d = 61 then (base64Value c).getD 0 &&& 3
      else spareBits rest
  | _ => 0

/-- The same text with those bits zero. -/
def withoutSpareBits : Bytes → Bytes
  | a :: b :: c :: d :: rest =>
      if c = 61 then
        a :: base64Char ((base64Value b).getD 0 &&& 48) :: c :: d :: rest
      else if d = 61 then
        a :: b :: base64Char ((base64Value c).getD 0 &&& 60) :: d :: rest
      else a :: b :: c :: d :: withoutSpareBits rest
  | s => s

/-- The 24 bits of four symbols. -/
def regroup (p q r s : UInt32) : UInt32 :=
  p <<< 18 ||| q <<< 12 ||| r <<< 6 ||| s

/-- An accepted group: two symbols, three, or four and more groups. -/
inductive AcceptedGroup (a b c d : UInt8) (rest value : Bytes) : Prop
  | two (p q : UInt32) (hp : base64Value a = some p)
      (hq : base64Value b = some q) (hc : c = 61) (hd : d = 61)
      (hrest : rest = [])
      (hvalue : value = [((regroup p q 0 0 >>> 16) &&& 255).toUInt8])
  | three (p q r : UInt32) (hp : base64Value a = some p)
      (hq : base64Value b = some q) (hr : base64Value c = some r)
      (hd : d = 61) (hrest : rest = [])
      (hvalue : value = [((regroup p q r 0 >>> 16) &&& 255).toUInt8,
        ((regroup p q r 0 >>> 8) &&& 255).toUInt8])
  | four (p q r s : UInt32) (tail : Bytes) (hp : base64Value a = some p)
      (hq : base64Value b = some q) (hr : base64Value c = some r)
      (hs : base64Value d = some s) (htail : base64Groups rest = .ok tail)
      (hvalue : value = ((regroup p q r s >>> 16) &&& 255).toUInt8
        :: ((regroup p q r s >>> 8) &&& 255).toUInt8
        :: (regroup p q r s &&& 255).toUInt8 :: tail)

private theorem base64Groups_ok {a b c d : UInt8} {rest value : Bytes}
    (h : base64Groups (a :: b :: c :: d :: rest) = .ok value) :
    AcceptedGroup a b c d rest value := by
  simp only [base64Groups, beq_iff_eq] at h
  split at h
  case isTrue => cases h
  case isFalse hplaced =>
    split at h
    case h_2 => cases h
    case h_1 p q r s hp hq hr hs =>
      by_cases hd : d = 61
      · -- padded, so nothing may follow
        have hnil : rest = [] := by
          cases rest with
          | nil => rfl
          | cons x more =>
              by_cases hc : c = 61
              · simp [hc] at h
              · simp [hc, hd] at h
        rw [if_pos hd] at hs
        cases hs
        subst hnil
        by_cases hc : c = 61
        · rw [if_pos hc] at hr
          cases hr
          refine .two p q hp hq hc hd rfl ?_
          simp only [hc, hd, base64Groups] at h
          cases h
          rfl
        · rw [if_neg hc] at hr
          refine .three p q r hp hq hr hd rfl ?_
          have hcb : (c == 61) = false := beq_eq_false_iff_ne.2 hc
          simp only [hcb, hd, base64Groups, if_neg hc, List.isEmpty_nil,
            Bool.not_true, Bool.and_false, Bool.false_eq_true, if_false] at h
          cases h
          rfl
      · have hc : c ≠ 61 := by
          intro hc
          simp [hc, hd] at hplaced
        rw [if_neg hc] at hr
        rw [if_neg hd] at hs
        cases htail : base64Groups rest with
        | error e => simp [hc, hd, htail] at h
        | ok tail =>
            refine .four p q r s tail hp hq hr hs htail ?_
            have hcb : (c == 61) = false := beq_eq_false_iff_ne.2 hc
            have hdb : (d == 61) = false := beq_eq_false_iff_ne.2 hd
            simp only [hcb, hdb, htail, if_neg hc, if_neg hd,
              Bool.false_and, Bool.false_eq_true, if_false] at h
            cases h
            rfl

-- ===================================================== spelling it back

private theorem toNat_regroup4 {a b c d : UInt8} {p q r s : UInt32}
    (hp : base64Value a = some p) (hq : base64Value b = some q)
    (hr : base64Value c = some r) (hs : base64Value d = some s) :
    (regroup p q r s).toNat
      = p.toNat * 262144 + q.toNat * 4096 + r.toNat * 64 + s.toNat :=
  toNat_regroup (base64Char_value hp).1 (base64Char_value hq).1
    (base64Char_value hr).1 (base64Char_value hs).1

private theorem base64Value_A : base64Value 65 = some 0 := by decide

/-- Four symbols are spelled back as they were. -/
theorem base64Encode_four {a b c d : UInt8} {p q r s : UInt32}
    (tail : Bytes) (hp : base64Value a = some p)
    (hq : base64Value b = some q) (hr : base64Value c = some r)
    (hs : base64Value d = some s) :
    base64Encode (((regroup p q r s >>> 16) &&& 255).toUInt8
        :: ((regroup p q r s >>> 8) &&& 255).toUInt8
        :: (regroup p q r s &&& 255).toUInt8 :: tail)
      = a :: b :: c :: d :: base64Encode tail := by
  have hn := toNat_regroup4 hp hq hr hs
  have hplt := (base64Char_value hp).1
  have hqlt := (base64Char_value hq).1
  have hrlt := (base64Char_value hr).1
  have hslt := (base64Char_value hs).1
  rw [base64Encode]
  have hcombine := toNat_base64Combine
    ((regroup p q r s >>> 16) &&& 255).toUInt8
    ((regroup p q r s >>> 8) &&& 255).toUInt8
    (regroup p q r s &&& 255).toUInt8
  rw [toNat_octet _ 16 (by decide), toNat_octet _ 8 (by decide),
    toNat_lastOctet, hn] at hcombine
  simp only [UInt32.reduceToNat, Nat.reducePow] at hcombine
  congr 1
  · rw [base64Char_eq_iff hp, toNat_shift _ 18 (by decide), hcombine]
    simp only [UInt32.reduceToNat, Nat.reducePow]
    omega
  congr 1
  · rw [base64Char_eq_iff hq, toNat_shift _ 12 (by decide), hcombine]
    simp only [UInt32.reduceToNat, Nat.reducePow]
    omega
  congr 1
  · rw [base64Char_eq_iff hr, toNat_shift _ 6 (by decide), hcombine]
    simp only [UInt32.reduceToNat, Nat.reducePow]
    omega
  congr 1
  · rw [base64Char_eq_iff hs, hcombine]
    omega

private theorem and_eq_zero_iff (v mask : UInt32) (k : Nat)
    (hmask : mask.toNat = 2 ^ k - 1) :
    v &&& mask = 0 ↔ v.toNat % 2 ^ k = 0 := by
  rw [← UInt32.toNat_inj, UInt32.toNat_and, hmask,
    Nat.and_two_pow_sub_one_eq_mod]
  rfl

/-- What is left of a symbol without its four low bits. -/
theorem toNat_and_48 {c : UInt8} {v : UInt32} (h : base64Value c = some v) :
    (v &&& 48).toNat = v.toNat - v.toNat % 16 := by
  have htable : ∀ k, k < 64 → k &&& 48 = k - k % 16 := by decide
  rw [UInt32.toNat_and]
  exact htable v.toNat (base64Char_value h).1

/-- What is left of a symbol without its two low bits. -/
theorem toNat_and_60 {c : UInt8} {v : UInt32} (h : base64Value c = some v) :
    (v &&& 60).toNat = v.toNat - v.toNat % 4 := by
  have htable : ∀ k, k < 64 → k &&& 60 = k - k % 4 := by decide
  rw [UInt32.toNat_and]
  exact htable v.toNat (base64Char_value h).1

/-- Three symbols and `=`: the last is spelled without its two low bits. -/
theorem base64Encode_three {a b c : UInt8} {p q r : UInt32}
    (hp : base64Value a = some p) (hq : base64Value b = some q)
    (hr : base64Value c = some r) :
    base64Encode [((regroup p q r 0 >>> 16) &&& 255).toUInt8,
        ((regroup p q r 0 >>> 8) &&& 255).toUInt8]
      = [a, b, base64Char (r &&& 60), 61] := by
  have hn := toNat_regroup4 hp hq hr base64Value_A
  have hplt := (base64Char_value hp).1
  have hqlt := (base64Char_value hq).1
  have hrlt := (base64Char_value hr).1
  rw [base64Encode]
  have hcombine := toNat_base64Combine
    ((regroup p q r 0 >>> 16) &&& 255).toUInt8
    ((regroup p q r 0 >>> 8) &&& 255).toUInt8 0
  rw [toNat_octet _ 16 (by decide), toNat_octet _ 8 (by decide), hn]
    at hcombine
  simp only [UInt32.reduceToNat, UInt8.reduceToNat, Nat.reducePow] at hcombine
  simp only [List.cons.injEq, and_true]
  rw [base64Char_eq_iff hp, base64Char_eq_iff hq, base64Char_inj,
    toNat_and_60 hr]
  rw [toNat_shift _ 18 (by decide), toNat_shift _ 12 (by decide),
    toNat_shift _ 6 (by decide), hcombine]
  simp only [UInt32.reduceToNat, Nat.reducePow]
  omega

/-- Two symbols and `==`: the second is spelled without its four low
bits. -/
theorem base64Encode_two {a b : UInt8} {p q : UInt32}
    (hp : base64Value a = some p) (hq : base64Value b = some q) :
    base64Encode [((regroup p q 0 0 >>> 16) &&& 255).toUInt8]
      = [a, base64Char (q &&& 48), 61, 61] := by
  have hn := toNat_regroup4 hp hq base64Value_A base64Value_A
  have hplt := (base64Char_value hp).1
  have hqlt := (base64Char_value hq).1
  rw [base64Encode]
  have hcombine := toNat_base64Combine
    ((regroup p q 0 0 >>> 16) &&& 255).toUInt8 0 0
  rw [toNat_octet _ 16 (by decide), hn] at hcombine
  simp only [UInt32.reduceToNat, UInt8.reduceToNat, Nat.reducePow] at hcombine
  simp only [List.cons.injEq, and_true]
  rw [base64Char_eq_iff hp, base64Char_inj, toNat_and_48 hq]
  rw [toNat_shift _ 18 (by decide), toNat_shift _ 12 (by decide), hcombine]
  simp only [UInt32.reduceToNat, Nat.reducePow]
  omega

theorem base64Value_ne {c : UInt8} {v : UInt32} (h : base64Value c = some v) :
    c ≠ 61 := by
  intro hc
  rw [hc, base64Value_pad] at h
  cases h

/-- The decoded groups are spelled back as they were, spare bits apart. -/
theorem base64Encode_groups {s value : Bytes} (hlength : s.length % 4 = 0)
    (h : base64Groups s = .ok value) :
    base64Encode value = withoutSpareBits s := by
  induction s using spareBits.induct generalizing value with
  | case1 a b d rest =>
      cases base64Groups_ok h with
      | two p q hp hq hc hd hrest hvalue =>
          rw [hd, hrest, hvalue, base64Encode_two hp hq, withoutSpareBits,
            if_pos rfl, hq, Option.getD_some]
      | three p q r hp hq hr hd hrest hvalue =>
          exact absurd rfl (base64Value_ne hr)
      | four p q r s tail hp hq hr hs htail hvalue =>
          exact absurd rfl (base64Value_ne hr)
  | case2 a b c rest hc =>
      cases base64Groups_ok h with
      | two p q hp hq hc' hd hrest hvalue => exact absurd hc' hc
      | three p q r hp hq hr hd hrest hvalue =>
          rw [hrest, hvalue, base64Encode_three hp hq hr, withoutSpareBits,
            if_neg hc, if_pos rfl, hr, Option.getD_some]
      | four p q r s tail hp hq hr hs htail hvalue =>
          exact absurd rfl (base64Value_ne hs)
  | case3 a b c d rest hc hd ih =>
      cases base64Groups_ok h with
      | two p q hp hq hc' hd' hrest hvalue => exact absurd hc' hc
      | three p q r hp hq hr hd' hrest hvalue => exact absurd hd' hd
      | four p q r s tail hp hq hr hs htail hvalue =>
          have hrest : rest.length % 4 = 0 := by
            simp only [List.length_cons] at hlength
            omega
          rw [hvalue, base64Encode_four tail hp hq hr hs, withoutSpareBits,
            if_neg hc, if_neg hd, ih hrest htail]
  | case4 s hshort =>
      -- fewer than four symbols: none at all
      have hnil : s = [] := by
        obtain _ | ⟨a, _ | ⟨b, _ | ⟨c, _ | ⟨d, rest⟩⟩⟩⟩ := s
        · rfl
        · simp at hlength
        · simp at hlength
        · simp at hlength
        · exact (hshort a b c d rest rfl).elim
      subst hnil
      cases h
      simp [base64Encode, withoutSpareBits]

/-- An accepted text is as it would be without spare bits if it has none. -/
theorem withoutSpareBits_eq_iff {s value : Bytes}
    (h : base64Groups s = .ok value) :
    withoutSpareBits s = s ↔ spareBits s = 0 := by
  induction s using spareBits.induct generalizing value with
  | case1 a b d rest =>
      cases base64Groups_ok h with
      | two p q hp hq hc hd hrest hvalue =>
          have hclear : base64Char (q &&& 48) = b ↔ q &&& 15 = 0 := by
            rw [base64Char_eq_iff hq, toNat_and_48 hq,
              and_eq_zero_iff q 15 4 (by decide)]
            have hlt := (base64Char_value hq).1
            omega
          simp only [withoutSpareBits, spareBits, if_true, hq, Option.getD_some,
            List.cons.injEq, and_true, true_and, hclear]
      | three p q r hp hq hr hd hrest hvalue =>
          exact absurd rfl (base64Value_ne hr)
      | four p q r s tail hp hq hr hs htail hvalue =>
          exact absurd rfl (base64Value_ne hr)
  | case2 a b c rest hc =>
      cases base64Groups_ok h with
      | two p q hp hq hc' hd hrest hvalue => exact absurd hc' hc
      | three p q r hp hq hr hd hrest hvalue =>
          have hclear : base64Char (r &&& 60) = c ↔ r &&& 3 = 0 := by
            rw [base64Char_eq_iff hr, toNat_and_60 hr,
              and_eq_zero_iff r 3 2 (by decide)]
            have hlt := (base64Char_value hr).1
            omega
          simp only [withoutSpareBits, spareBits, if_neg hc, if_true, hr,
            Option.getD_some, List.cons.injEq, and_true, true_and, hclear]
      | four p q r s tail hp hq hr hs htail hvalue =>
          exact absurd rfl (base64Value_ne hs)
  | case3 a b c d rest hc hd ih =>
      cases base64Groups_ok h with
      | two p q hp hq hc' hd' hrest hvalue => exact absurd hc' hc
      | three p q r hp hq hr hd' hrest hvalue => exact absurd hd' hd
      | four p q r s tail hp hq hr hs htail hvalue =>
          rw [withoutSpareBits, spareBits, if_neg hc, if_neg hd, if_neg hc,
            if_neg hd, ← ih htail]
          simp
  | case4 s hshort =>
      rw [withoutSpareBits.eq_def, spareBits.eq_def]
      obtain _ | ⟨a, _ | ⟨b, _ | ⟨c, _ | ⟨d, rest⟩⟩⟩⟩ := s
      · exact ⟨fun _ => rfl, fun _ => rfl⟩
      · exact ⟨fun _ => rfl, fun _ => rfl⟩
      · exact ⟨fun _ => rfl, fun _ => rfl⟩
      · exact ⟨fun _ => rfl, fun _ => rfl⟩
      · exact (hshort a b c d rest rfl).elim

-- ========================================================== both ways

/-- Every byte string survives being written and read. A text that reads
as `value` is the one written for it unless the padded group at its end
carries a spare bit, and then it is that one but for its spare bits: per
byte string, exactly one accepted text has none. -/
theorem base64_spelled (value : Bytes) :
    base64Decode (base64Encode value) = .ok value
      ∧ ∀ s, base64Decode s = .ok value →
          (base64Encode value = s ↔ spareBits s = 0)
            ∧ base64Encode value = withoutSpareBits s := by
  refine ⟨base64Decode_base64Encode value, fun s h => ?_⟩
  unfold base64Decode at h
  split at h
  case isTrue => cases h
  case isFalse hlength =>
    have hwritten : base64Encode value = withoutSpareBits s :=
      base64Encode_groups (not_not.1 hlength) h
    refine ⟨?_, hwritten⟩
    rw [hwritten]
    exact withoutSpareBits_eq_iff h

theorem base64_spelled_photo :
    base64Decode (text "cGhvdG8=") = .ok (text "photo")
      ∧ base64Encode (text "photo") = text "cGhvdG8="
      ∧ base64Decode (text "cGhvdG9=") = .ok (text "photo")
      ∧ base64Encode (text "photo") = withoutSpareBits (text "cGhvdG9=") := by
  have hread : base64Decode (text "cGhvdG8=") = .ok (text "photo") := by
    decide +kernel
  have hspare : base64Decode (text "cGhvdG9=") = .ok (text "photo") := by
    decide +kernel
  refine ⟨hread, ?_, hspare, ((base64_spelled (text "photo")).2 _ hspare).2⟩
  refine ((base64_spelled (text "photo")).2 _ hread).1.2 ?_
  decide +kernel

/-- `QR==` reads as `A`, and `A` is written `QQ==`. -/
theorem base64_spare_bit :
    ¬ ((∀ v, base64Decode (base64Encode v) = .ok v)
      ∧ ∀ s v, base64Decode s = .ok v → base64Encode v = s) := by
  intro h
  have hread : base64Decode (text "QR==") = .ok (text "A") := by
    decide +kernel
  have hwritten := h.2 _ _ hread
  revert hwritten
  decide +kernel

end PhotoBridge
