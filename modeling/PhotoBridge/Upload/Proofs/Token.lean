/-
What the comparison of tokens accepts. The difference of the lengths is
kept modulo 256 and the shorter string is read as if zeros followed it, so
besides equal strings it accepts those that differ by a multiple of 256
NUL bytes at the end (`constantTimeTokenEquals_true`). A token is issued
without a NUL byte (`zero_notMem_generateToken`): what gets in with it is
the token itself, or the token with NUL bytes behind it.
-/
import PhotoBridge.Upload.Token
import Mathlib.Data.List.GetD
import Mathlib.Data.LawfulXor.Basic
import Mathlib.Data.Nat.ModEq

namespace PhotoBridge.Upload

-- ======================================================= the accumulator

theorem uint8_or_eq_zero {a b : UInt8} : a ||| b = 0 ↔ a = 0 ∧ b = 0 := by
  simp only [← UInt8.toBitVec_inj, UInt8.toBitVec_or]
  exact BitVec.or_eq_zero_iff

/-- Nothing is taken out of the accumulator again. -/
theorem foldl_or_eq_zero {α : Type} (f : α → UInt8) (l : List α) (d : UInt8) :
    l.foldl (fun d a => d ||| f a) d = 0 ↔ d = 0 ∧ ∀ a ∈ l, f a = 0 := by
  induction l generalizing d with
  | nil => simp
  | cons a rest ih =>
      rw [List.foldl_cons, ih, uint8_or_eq_zero, List.forall_mem_cons, and_assoc]

/-- What is left of the lengths: whether they agree modulo 256. -/
theorem ofNat_xor_eq_zero {m n : Nat} :
    UInt8.ofNat (m ^^^ n) = 0 ↔ m ≡ n [MOD 256] := by
  have hmod : (m ^^^ n) % 2 ^ 8 = m % 2 ^ 8 ^^^ n % 2 ^ 8 :=
    Nat.xor_mod_two_pow
  rw [← UInt8.toNat_inj, UInt8.toNat_ofNat', hmod]
  exact xor_eq_zero_iff

private theorem constantTimeTokenEquals_iff {provided expected : Bytes} :
    constantTimeTokenEquals provided expected = true
      ↔ provided.length ≡ expected.length [MOD 256]
        ∧ ∀ index, byteOrZero provided index = byteOrZero expected index := by
  unfold constantTimeTokenEquals
  simp only [beq_iff_eq, foldl_or_eq_zero, ofNat_xor_eq_zero, List.mem_range,
    UInt8.xor_eq_zero_iff]
  refine and_congr_right fun _ => ⟨fun h index => ?_, fun h index _ => h index⟩
  by_cases hin : index < max provided.length expected.length
  · refine h index ?_
    split <;> omega
  · rw [byteOrZero, byteOrZero, dif_neg (by omega), dif_neg (by omega)]

-- ============================================================== the ends

/-- As many NUL bytes as the accumulator does not see. -/
def nulBytes (rounds : Nat) : Bytes := List.replicate (256 * rounds) 0

private theorem nulBytes_ne_nil {rounds : Nat} (h : 0 < rounds) :
    nulBytes rounds ≠ [] := fun hnil => by
  rw [nulBytes, List.replicate_eq_nil_iff] at hnil
  omega

/-- The two differ, and only by such an end of one of them. -/
def PaddedApart (provided expected : Bytes) : Prop :=
  ∃ rounds, 0 < rounds ∧ (provided = expected ++ nulBytes rounds
    ∨ expected = provided ++ nulBytes rounds)

private theorem byteOrZero_append_zeros (value : Bytes) (n index : Nat) :
    byteOrZero (value ++ List.replicate n 0) index = byteOrZero value index := by
  unfold byteOrZero
  by_cases hin : index < value.length
  · rw [dif_pos hin, dif_pos (by rw [List.length_append]; omega),
      List.getElem_append_left hin]
  · rw [dif_neg hin]
    split
    · rw [List.getElem_append_right (by omega), List.getElem_replicate]
    · rfl

/-- The longer of two strings that read alike is the other and zeros. -/
theorem eq_append_zeros {short long : Bytes}
    (hread : ∀ index, byteOrZero long index = byteOrZero short index)
    (hle : short.length ≤ long.length) :
    long = short ++ List.replicate (long.length - short.length) 0 := by
  refine List.ext_getElem (by simp; omega) fun index hlong happend => ?_
  have hsame := hread index
  rw [← byteOrZero_append_zeros short (long.length - short.length)] at hsame
  rwa [byteOrZero, byteOrZero, dif_pos hlong, dif_pos happend] at hsame

private theorem exists_nulBytes {short long : Bytes}
    (hmod : long.length ≡ short.length [MOD 256])
    (hread : ∀ index, byteOrZero long index = byteOrZero short index)
    (hle : short.length ≤ long.length) :
    ∃ rounds, long = short ++ nulBytes rounds := by
  obtain ⟨rounds, hrounds⟩ := (Nat.modEq_iff_dvd' hle).1 hmod.symm
  refine ⟨rounds, ?_⟩
  rw [nulBytes, ← hrounds]
  exact eq_append_zeros hread hle

theorem constantTimeTokenEquals_nulBytes (value : Bytes) (rounds : Nat) :
    constantTimeTokenEquals (value ++ nulBytes rounds) value = true := by
  refine constantTimeTokenEquals_iff.2 ⟨?_, byteOrZero_append_zeros value _⟩
  rw [List.length_append, nulBytes, List.length_replicate]
  exact Nat.add_mul_mod_self_left _ _ _

private theorem constantTimeTokenEquals_comm (provided expected : Bytes) :
    constantTimeTokenEquals provided expected
      = constantTimeTokenEquals expected provided := by
  rw [Bool.eq_iff_iff, constantTimeTokenEquals_iff, constantTimeTokenEquals_iff]
  exact ⟨fun h => ⟨h.1.symm, fun index => (h.2 index).symm⟩,
    fun h => ⟨h.1.symm, fun index => (h.2 index).symm⟩⟩

/-- What the comparison accepts. -/
theorem constantTimeTokenEquals_true {provided expected : Bytes} :
    constantTimeTokenEquals provided expected = true
      ↔ provided = expected ∨ PaddedApart provided expected := by
  constructor
  · intro h
    obtain ⟨hmod, hread⟩ := constantTimeTokenEquals_iff.1 h
    rcases le_total expected.length provided.length with hle | hle
    · obtain ⟨rounds, hlong⟩ := exists_nulBytes hmod hread hle
      rcases Nat.eq_zero_or_pos rounds with rfl | hpos
      · exact .inl (hlong.trans (List.append_nil _))
      · exact .inr ⟨rounds, hpos, .inl hlong⟩
    · obtain ⟨rounds, hlong⟩ :=
        exists_nulBytes hmod.symm (fun index => (hread index).symm) hle
      rcases Nat.eq_zero_or_pos rounds with rfl | hpos
      · exact .inl (hlong.trans (List.append_nil _)).symm
      · exact .inr ⟨rounds, hpos, .inr hlong⟩
  · rintro (rfl | ⟨rounds, -, rfl | rfl⟩)
    · exact constantTimeTokenEquals_iff.2 ⟨rfl, fun _ => rfl⟩
    · exact constantTimeTokenEquals_nulBytes _ rounds
    · rw [constantTimeTokenEquals_comm]
      exact constantTimeTokenEquals_nulBytes _ rounds

theorem PaddedApart.ne {provided expected : Bytes}
    (h : PaddedApart provided expected) : provided ≠ expected := by
  rintro rfl
  obtain ⟨rounds, hpos, heq⟩ := h
  have hlength := congrArg List.length (heq.elim id id)
  rw [List.length_append, nulBytes, List.length_replicate] at hlength
  omega

-- ========================================================== issued tokens

private theorem base64UrlDigit_mem (value : UInt32) :
    base64UrlDigit value ∈ base64UrlAlphabet := by
  have hlength : base64UrlAlphabet.length = 64 := by decide
  have hlt : (value &&& 0x3f).toNat < base64UrlAlphabet.length := by
    rw [hlength, UInt32.toNat_and]
    exact lt_of_le_of_lt Nat.and_le_right (by decide)
  rw [base64UrlDigit, List.getD_eq_getElem _ _ hlt]
  exact List.getElem_mem hlt

private theorem drainBits_mem (buffer : UInt32) (bits : Nat) :
    ∀ digit ∈ (drainBits buffer bits).2, digit ∈ base64UrlAlphabet := by
  induction bits using Nat.strongRecOn with
  | ind bits ih =>
      intro digit hdigit
      rw [drainBits] at hdigit
      split at hdigit
      · cases hdigit
      · rcases List.mem_cons.1 hdigit with rfl | hdigit
        · exact base64UrlDigit_mem _
        · exact ih (bits - 6) (by omega) digit hdigit

private theorem encodeFrom_mem (bytes : Bytes) (buffer : UInt32) (bits : Nat) :
    ∀ digit ∈ encodeFrom buffer bits bytes, digit ∈ base64UrlAlphabet := by
  induction bytes generalizing buffer bits with
  | nil =>
      intro digit hdigit
      rw [encodeFrom] at hdigit
      split at hdigit
      · rw [List.mem_singleton.1 hdigit]
        exact base64UrlDigit_mem _
      · cases hdigit
  | cons byte rest ih =>
      intro digit hdigit
      rw [encodeFrom, List.mem_append] at hdigit
      rcases hdigit with hdigit | hdigit
      · exact drainBits_mem _ _ digit hdigit
      · exact ih _ _ digit hdigit

private theorem zero_notMem_generateToken (random : Fin 32 → UInt8) :
    0 ∉ generateToken random :=
  fun h => absurd (encodeFrom_mem _ _ _ 0 h) (by decide)

private theorem generateToken_ne_nil (random : Fin 32 → UInt8) :
    generateToken random ≠ [] := by
  intro hnil
  have hfirst : ∀ buffer, (drainBits buffer 8).2 ≠ [] := fun buffer => by
    rw [drainBits, if_neg (by omega)]
    exact List.cons_ne_nil _ _
  rw [generateToken, encodeBase64Url, List.ofFn_succ, encodeFrom,
    List.append_eq_nil_iff] at hnil
  exact hfirst _ hnil.1

/-- Only the one shown can have NUL bytes behind it. -/
theorem paddedApart_generateToken {provided : Bytes} {random : Fin 32 → UInt8} :
    PaddedApart provided (generateToken random)
      ↔ ∃ rounds, 0 < rounds
        ∧ provided = generateToken random ++ nulBytes rounds := by
  refine exists_congr fun rounds => and_congr_right fun hpos =>
    or_iff_left fun htoken => zero_notMem_generateToken random ?_
  rw [htoken, nulBytes]
  exact List.mem_append_right _ (List.mem_replicate.2 ⟨by omega, rfl⟩)

-- ============================================================ the requests

private theorem apiAuthorized_true {authorization token : Bytes} :
    apiAuthorized authorization token = true
      ↔ ∃ provided, authorization = bearer ++ provided
        ∧ provided ≠ [] ∧ constantTimeTokenEquals provided token = true := by
  unfold apiAuthorized
  simp only [Bool.and_eq_true, decide_eq_true_eq, beq_iff_eq]
  constructor
  · rintro ⟨⟨hlength, hfront⟩, hequal⟩
    refine ⟨_, ?_, ?_, hequal⟩
    · calc authorization
          = authorization.take bearer.length ++ authorization.drop bearer.length :=
            (List.take_append_drop _ _).symm
        _ = bearer ++ authorization.drop bearer.length := by rw [hfront]
    · exact List.ne_nil_of_length_pos (by rw [List.length_drop]; omega)
  · rintro ⟨provided, rfl, hne, hequal⟩
    have hpos := List.length_pos_iff.2 hne
    refine ⟨⟨?_, List.take_left⟩, ?_⟩
    · rw [List.length_append]
      omega
    · rwa [List.drop_left]

/-- Which headers get in with an issued token. -/
theorem apiAuthorized_generateToken {authorization : Bytes}
    {random : Fin 32 → UInt8} :
    apiAuthorized authorization (generateToken random) = true
      ↔ ∃ rounds, authorization
          = bearer ++ generateToken random ++ nulBytes rounds := by
  rw [apiAuthorized_true]
  constructor
  · rintro ⟨provided, rfl, -, hequal⟩
    rcases constantTimeTokenEquals_true.1 hequal with rfl | hpadded
    · exact ⟨0, (List.append_nil _).symm⟩
    · obtain ⟨rounds, -, rfl⟩ := paddedApart_generateToken.1 hpadded
      exact ⟨rounds, (List.append_assoc _ _ _).symm⟩
  · rintro ⟨rounds, rfl⟩
    refine ⟨generateToken random ++ nulBytes rounds, List.append_assoc _ _ _,
      List.append_ne_nil_of_left_ne_nil (generateToken_ne_nil random) _,
      constantTimeTokenEquals_nulBytes _ _⟩

theorem pageAuthorized_true {params : List (Bytes × Bytes)} {token : Bytes} :
    pageAuthorized params token = true ↔ ∃ value,
      params.lookup (text "t") = some value
        ∧ constantTimeTokenEquals value token = true := by
  unfold pageAuthorized
  cases params.lookup (text "t") <;> simp

/-- Which queries get in with an issued token. -/
theorem pageAuthorized_generateToken {params : List (Bytes × Bytes)}
    {random : Fin 32 → UInt8} :
    pageAuthorized params (generateToken random) = true
      ↔ ∃ rounds, params.lookup (text "t")
          = some (generateToken random ++ nulBytes rounds) := by
  rw [pageAuthorized_true]
  constructor
  · rintro ⟨value, hvalue, hequal⟩
    rcases constantTimeTokenEquals_true.1 hequal with rfl | hpadded
    · exact ⟨0, hvalue.trans (congrArg some (List.append_nil _).symm)⟩
    · obtain ⟨rounds, -, rfl⟩ := paddedApart_generateToken.1 hpadded
      exact ⟨rounds, hvalue⟩
  · rintro ⟨rounds, hvalue⟩
    exact ⟨_, hvalue, constantTimeTokenEquals_nulBytes _ _⟩

/-- The comparison is exact except on strings that differ by a multiple of
256 NUL bytes at the end, whatever the token; so an `Authorization` header
other than the issued token's gets in if and only if it has such an end
behind the token, and so does a query whose parameter has. -/
theorem constantTimeTokenEquals_exact (provided expected : Bytes)
    (random : Fin 32 → UInt8) (authorization : Bytes)
    (params : List (Bytes × Bytes)) :
    ((constantTimeTokenEquals provided expected = true
        ↔ provided = expected) ↔ ¬PaddedApart provided expected)
      ∧ ((apiAuthorized authorization (generateToken random) = true
          → authorization = bearer ++ generateToken random)
        ↔ ¬∃ rounds, 0 < rounds ∧ authorization
            = bearer ++ generateToken random ++ nulBytes rounds)
      ∧ ((pageAuthorized params (generateToken random) = true
          → params.lookup (text "t") = some (generateToken random))
        ↔ ¬∃ rounds, 0 < rounds ∧ params.lookup (text "t")
            = some (generateToken random ++ nulBytes rounds)) := by
  refine ⟨?_, ?_, ?_⟩
  · rw [constantTimeTokenEquals_true]
    exact ⟨fun h hpadded => hpadded.ne (h.1 (.inr hpadded)),
      fun hnot => or_iff_left hnot⟩
  · rw [apiAuthorized_generateToken]
    constructor
    · rintro h ⟨rounds, hpos, heq⟩
      have hshown := heq.symm.trans (h ⟨rounds, heq⟩)
      exact nulBytes_ne_nil hpos (List.append_right_eq_self.1 hshown)
    · rintro hnot ⟨rounds, heq⟩
      rcases Nat.eq_zero_or_pos rounds with rfl | hpos
      · exact heq.trans (List.append_nil _)
      · exact absurd ⟨rounds, hpos, heq⟩ hnot
  · rw [pageAuthorized_generateToken]
    constructor
    · rintro h ⟨rounds, hpos, heq⟩
      have hshown := Option.some.inj (heq.symm.trans (h ⟨rounds, heq⟩))
      exact nulBytes_ne_nil hpos (List.append_right_eq_self.1 hshown)
    · rintro hnot ⟨rounds, heq⟩
      rcases Nat.eq_zero_or_pos rounds with rfl | hpos
      · exact heq.trans (congrArg some (List.append_nil _))
      · exact absurd ⟨rounds, hpos, heq⟩ hnot

/-- A token is let in that is not the one expected. -/
theorem constantTimeTokenEquals_nul_end :
    ¬∀ provided expected, constantTimeTokenEquals provided expected = true
      ↔ provided = expected := by
  intro h
  have hpadded : PaddedApart (text "t" ++ nulBytes 1) (text "t") :=
    ⟨1, Nat.one_pos, .inl rfl⟩
  exact hpadded.ne ((h _ _).1 (constantTimeTokenEquals_nulBytes _ 1))

end PhotoBridge.Upload
