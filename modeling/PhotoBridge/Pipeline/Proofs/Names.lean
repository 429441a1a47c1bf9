/-
The names recovery works with. A temp name and a target path of one
component are names of directory entries: a path can be read from them
that leads to the entry, and `RenameNoReplace` and `UnlinkAt` take them.
-/
import PhotoBridge.Proofs.Paths
import PhotoBridge.Pipeline.Files
import PhotoBridge.Plan.Proofs.Text
import PhotoBridge.Scan.Proofs.Walker

namespace PhotoBridge

open Joining JsonText

-- ========================================================== single components

/-- A path has at least one component. -/
theorem parseComponents_ne_nil {component raw : Bytes} :
    parseComponents component raw ≠ .ok [] := by
  induction raw generalizing component with
  | nil =>
      intro h
      unfold parseComponents at h
      cases hcheck : checkComponent component <;> rw [hcheck] at h <;> cases h
  | cons byte rest ih =>
      unfold parseComponents
      split
      · intro h
        obtain ⟨_, -, h⟩ := bind_ok.1 h
        obtain ⟨components, -, h⟩ := bind_ok.1 h
        cases h
      · exact ih

/-- What is read as one component has no separator left in it. -/
theorem parseComponents_single {component raw name : Bytes}
    (h : parseComponents component raw = .ok [name]) :
    name = component ++ raw ∧ 47 ∉ raw ∧ checkComponent name = .ok () := by
  induction raw generalizing component with
  | nil =>
      unfold parseComponents at h
      cases hcheck : checkComponent component with
      | error e =>
          rw [hcheck] at h
          cases h
      | ok _ =>
          rw [hcheck] at h
          cases h
          exact ⟨(List.append_nil _).symm, List.not_mem_nil, hcheck⟩
  | cons byte rest ih =>
      unfold parseComponents at h
      split at h
      · -- a separator would leave a second component
        cases hcheck : checkComponent component with
        | error e =>
            rw [hcheck] at h
            cases h
        | ok _ =>
            rw [hcheck] at h
            cases htail : parseComponents [] rest with
            | error e =>
                rw [htail] at h
                cases h
            | ok tail =>
                rw [htail] at h
                cases h
                exact absurd htail parseComponents_ne_nil
      · next hbyte =>
        obtain ⟨rfl, hrest, hcheck⟩ := ih h
        refine ⟨by rw [List.append_assoc]; rfl, ?_, hcheck⟩
        rw [List.mem_cons, not_or]
        exact ⟨fun heq => hbyte (beq_iff_eq.2 heq.symm), hrest⟩

/-- A path of one component is the name of an entry. -/
theorem RelativePath.isFileName {path : RelativePath}
    (h : path.components.length = 1) : IsFileName path.bytes := by
  obtain ⟨name, hname⟩ := List.length_eq_one_iff.1 h
  have hparsed := path.parsed
  rw [hname] at hparsed
  unfold checkRelativePath at hparsed
  split at hparsed
  · cases hparsed
  · split at hparsed
    · cases hparsed
    · next hnul =>
      split at hparsed
      · cases hparsed
      · obtain ⟨rfl, hslash, hcheck⟩ := parseComponents_single hparsed
        rw [List.nil_append] at hcheck
        obtain ⟨hempty, hdot, hdots⟩ := checkComponent_ok hcheck
        refine ⟨hempty, hslash, fun hmem => hnul ?_, hdot, hdots⟩
        exact List.contains_iff_mem.2 hmem

/-- The name of an entry is a path of one component. -/
theorem IsFileName.parse {name : Bytes} (h : IsFileName name) :
    ∃ path, RelativePath.parse name = .ok path ∧ path.bytes = name := by
  have hread := parseComponents_name h.noSlash [] []
  rw [List.append_nil, List.nil_append] at hread
  have hcheck : checkRelativePath name = .ok [name] := by
    unfold checkRelativePath
    rw [if_neg, if_neg, if_neg, hread, parseComponents, h.checkComponent]
    · rfl
    · intro hhead
      obtain ⟨rest, rfl⟩ := List.head?_eq_some_iff.1 (beq_iff_eq.1 hhead)
      exact h.noSlash List.mem_cons_self
    · exact fun hnul => h.noNul (List.contains_iff_mem.1 hnul)
    · simpa using h.nonempty
  refine ⟨⟨name, [name], hcheck⟩, ?_, rfl⟩
  unfold RelativePath.parse
  split
  · next components h' =>
    rw [hcheck] at h'
    cases h'
    rfl
  · next e h' =>
    rw [hcheck] at h'
    cases h'

theorem IsFileName.validateLeafName {name : Bytes} (h : IsFileName name) :
    validateLeafName name = .ok () := by
  unfold PhotoBridge.validateLeafName
  rw [if_neg]
  simp only [Bool.or_eq_true, beq_iff_eq, not_or]
  refine ⟨⟨⟨⟨?_, ?_⟩, ?_⟩, h.notDot⟩, h.notDotDot⟩
  · simpa using h.nonempty
  · exact fun hslash => h.noSlash (List.contains_iff_mem.1 hslash)
  · exact fun hnul => h.noNul (List.contains_iff_mem.1 hnul)

-- ================================================================== temps

theorem hexEncode_visible (bytes : Bytes) : ∀ c ∈ hexEncode bytes, 48 ≤ c := by
  intro c hc
  have hdigit : ∀ k, k < 16 → 48 ≤ hexDigit (UInt8.ofNat k) := by decide
  obtain ⟨b, -, hmem⟩ := List.mem_flatMap.1 hc
  have hb := b.toNat_lt
  have hhigh : (b >>> 4).toNat < 16 := by
    rw [UInt8.toNat_shiftRight]
    show b.toNat >>> 4 < 16
    rw [Nat.shiftRight_eq_div_pow]
    omega
  have hlow : (b &&& 15).toNat < 16 := by
    rw [UInt8.toNat_and]
    exact Nat.lt_of_le_of_lt Nat.and_le_right (by decide)
  have hh := hdigit _ hhigh
  have hl := hdigit _ hlow
  rw [UInt8.ofNat_toNat] at hh hl
  rcases List.mem_cons.1 hmem with rfl | hmem
  · exact hh
  · rw [List.mem_singleton.1 hmem]
    exact hl

variable {blake3 : Bytes → Digest} {planId taskId attemptId : Bytes}

/-- What a temp name is made of. -/
theorem tempNameFor_bytes :
    ∀ c ∈ tempNameFor blake3 planId taskId attemptId,
      c ∈ text ".photobridge." ++ text ".pbtmp" ∨ 48 ≤ c ∧ c < 128 := by
  intro c hc
  unfold tempNameFor at hc
  rw [toHex_eq, List.mem_append, List.mem_append] at hc
  rcases hc with (hc | hc) | hc
  · exact .inl (List.mem_append_left _ hc)
  · exact .inr ⟨hexEncode_visible _ c hc, hexEncode_ascii _ c hc⟩
  · exact .inl (List.mem_append_right _ hc)

private theorem tempNameFor_ascii :
    ∀ c ∈ tempNameFor blake3 planId taskId attemptId, c < 128 := by
  intro c hc
  have hfixed : ∀ c ∈ text ".photobridge." ++ text ".pbtmp", c < 128 := by
    decide +kernel
  rcases tempNameFor_bytes c hc with hc | hc
  · exact hfixed c hc
  · exact hc.2

theorem tempNameFor_utf8 :
    IsUtf8 (tempNameFor blake3 planId taskId attemptId) :=
  isUtf8_of_ascii tempNameFor_ascii

/-- A temp name is the name of an entry. -/
theorem tempNameFor_isFileName :
    IsFileName (tempNameFor blake3 planId taskId attemptId) := by
  have hlength : 13 ≤ (tempNameFor blake3 planId taskId attemptId).length := by
    have hprefix : (text ".photobridge.").length = 13 := by decide +kernel
    unfold tempNameFor
    rw [List.length_append, List.length_append, hprefix]
    omega
  have hfixed : ∀ c ∈ text ".photobridge." ++ text ".pbtmp", c ≠ 47 ∧ c ≠ 0 := by
    decide +kernel
  have hall : ∀ c ∈ tempNameFor blake3 planId taskId attemptId,
      c ≠ 47 ∧ c ≠ 0 := by
    intro c hc
    rcases tempNameFor_bytes c hc with hc | ⟨hlow, -⟩
    · exact hfixed c hc
    · constructor <;>
        · rintro rfl
          exact absurd hlow (by decide)
  have hne : ∀ s : Bytes, s.length < 13 →
      tempNameFor blake3 planId taskId attemptId ≠ s := by
    rintro s hs rfl
    omega
  exact ⟨hne _ (by decide), fun h => (hall 47 h).1 rfl,
    fun h => (hall 0 h).2 rfl, hne _ (by decide +kernel),
    hne _ (by decide +kernel)⟩

end PhotoBridge
