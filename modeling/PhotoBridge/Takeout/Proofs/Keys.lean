/-
The keys of the parser: a directory and a name, joined. The name has no
separator in it, so a key determines both (`front_append_inj`), and its
prefixes that reach beyond the directory are the names cut short in the
same directory (`mem_prefixes_iff`).
-/
import PhotoBridge.Plan.Proofs.Mapping
import PhotoBridge.Scan.Proofs.Scan
import PhotoBridge.Takeout.Outcomes

namespace PhotoBridge

-- ============================================================= components

private theorem parseComponents_fileNames {component raw : Bytes}
    {components : List Bytes}
    (h : parseComponents component raw = .ok components)
    (hslash : 47 ∉ component) (hnul : 0 ∉ component ++ raw) :
    ∀ c ∈ components, IsFileName c := by
  have hname : ∀ name : Bytes, checkComponent name = .ok () → 47 ∉ name →
      0 ∉ name → IsFileName name := by
    intro name hcheck hname hzero
    unfold checkComponent at hcheck
    split at hcheck
    · cases hcheck
    · next hempty =>
      split at hcheck
      · cases hcheck
      · next hdots =>
        simp only [Bool.or_eq_true, beq_iff_eq, not_or] at hdots
        exact ⟨fun hnil => hempty (by rw [hnil]; rfl), hname, hzero, hdots.1,
          hdots.2⟩
  induction raw generalizing component components with
  | nil =>
      obtain ⟨u, hcheck, hcomponents⟩ := Joining.bind_ok.1 h
      cases hcomponents
      rw [List.append_nil] at hnul
      rw [List.forall_mem_singleton]
      exact hname component hcheck hslash hnul
  | cons byte rest ih =>
      rw [List.mem_append, List.mem_cons] at hnul
      rw [parseComponents] at h
      split at h
      · obtain ⟨u, hcheck, h₁⟩ := Joining.bind_ok.1 h
        obtain ⟨tail, htail, hcomponents⟩ := Joining.bind_ok.1 h₁
        cases hcomponents
        rw [List.forall_mem_cons]
        refine ⟨hname component hcheck hslash fun hmem => hnul (.inl hmem),
          ih htail (by simp) fun hmem => hnul (.inr (.inr ?_))⟩
        simpa using hmem
      · next hbyte =>
        refine ih h ?_ ?_
        · rw [List.mem_append, List.mem_singleton]
          rintro (hmem | rfl)
          · exact hslash hmem
          · exact hbyte rfl
        · rw [List.append_assoc, List.singleton_append, List.mem_append,
            List.mem_cons]
          exact hnul

/-- Every component of a path is the name of an entry. -/
theorem RelativePath.fileNames (path : RelativePath) :
    ∀ c ∈ path.components, IsFileName c := by
  have hparsed := path.parsed
  unfold checkRelativePath at hparsed
  split at hparsed
  · cases hparsed
  split at hparsed
  · cases hparsed
  · next hnul =>
    split at hparsed
    · cases hparsed
    · refine parseComponents_fileNames hparsed (by simp) fun hmem => hnul ?_
      exact List.contains_iff_mem.2 hmem

-- ============================================================== separators

/-- Lower case makes no separators, and takes none away. -/
private theorem slash_mem_lowerAscii {value : Bytes} :
    47 ∈ lowerAscii value ↔ 47 ∈ value := by
  simp only [lowerAscii, List.mem_map, toLower_slash]
  simp

/-- A key up to the name: the directory, and a separator if there is one. -/
def front (directory : List Bytes) : Bytes :=
  if directory = [] then [] else pathOf directory ++ [47]

private theorem joinPath_front {directory : List Bytes}
    (h : ∀ c ∈ directory, IsFileName c) (name : Bytes) :
    joinPath directory name = front directory ++ name := by
  rw [joinPath_eq fun c hc => (h c hc).nonempty]
  unfold front
  split
  · next hnil =>
    rw [hnil]
    exact pathOf_singleton name
  · next hne =>
    rw [pathOf_append hne, List.append_assoc]
    rfl

/-- What stands behind the last separator, and what before it. -/
theorem append_noSlash_inj {front front' name name' : Bytes}
    (hfront : front = [] ∨ ∃ path, front = path ++ [47])
    (hfront' : front' = [] ∨ ∃ path, front' = path ++ [47])
    (hname : 47 ∉ name) (hname' : 47 ∉ name')
    (h : front ++ name = front' ++ name') : front = front' ∧ name = name' := by
  -- the front that is longer would end in the other's name
  have hlonger : ∀ {front front' name name' middle : Bytes},
      (front' = [] ∨ ∃ path, front' = path ++ [47]) → 47 ∉ name →
      front' = front ++ middle → name = middle ++ name' → middle = [] := by
    intro front front' name name' middle hends hslash heq hrest
    rcases List.eq_nil_or_concat middle with hnil | ⟨init, last, rfl⟩
    · exact hnil
    · rcases hends with hnil | ⟨path, hpath⟩
      · rw [hnil] at heq
        simp at heq
      · rw [hpath, List.concat_eq_append, ← List.append_assoc] at heq
        obtain ⟨-, hlast⟩ := List.append_inj' heq rfl
        rw [hrest, ← (List.cons.inj hlast).1] at hslash
        exact absurd (by simp) hslash
  rcases List.append_eq_append_iff.1 h with
    ⟨middle, hfronts, hnames⟩ | ⟨middle, hfronts, hnames⟩
  · obtain rfl := hlonger hfront' hname hfronts hnames
    exact ⟨by simpa using hfronts.symm, by simpa using hnames⟩
  · obtain rfl := hlonger hfront hname' hfronts hnames
    exact ⟨by simpa using hfronts, by simpa using hnames.symm⟩

private theorem front_ends (directory : List Bytes) :
    front directory = [] ∨ ∃ path, front directory = path ++ [47] := by
  unfold front
  split
  · exact .inl rfl
  · exact .inr ⟨_, rfl⟩

private theorem front_inj {directory directory' : List Bytes}
    (h : ∀ c ∈ directory, IsFileName c) (h' : ∀ c ∈ directory', IsFileName c)
    (heq : front directory = front directory') : directory = directory' := by
  unfold front at heq
  split at heq
  · next hnil =>
    split at heq
    · next hnil' => rw [hnil, hnil']
    · exact absurd heq (by simp)
  · next hne =>
    split at heq
    · exact absurd heq (by simp)
    · next hne' =>
      exact pathOf_inj hne hne' h h' (List.append_cancel_right heq)

/-- A key determines the directory and the name. -/
theorem front_append_inj {directory directory' : List Bytes}
    {name name' : Bytes} (h : ∀ c ∈ directory, IsFileName c)
    (h' : ∀ c ∈ directory', IsFileName c) (hname : 47 ∉ name)
    (hname' : 47 ∉ name')
    (heq : front directory ++ name = front directory' ++ name') :
    directory = directory' ∧ name = name' := by
  obtain ⟨hfront, hnames⟩ := append_noSlash_inj (front_ends directory)
    (front_ends directory') hname hname' heq
  exact ⟨front_inj h h' hfront, hnames⟩

namespace Takeout

-- ==================================================================== keys

private theorem directory_fileNames (asset : PhysicalAsset) :
    ∀ c ∈ directory asset, IsFileName c :=
  fun c hc => asset.relativePath.fileNames c (List.dropLast_subset _ hc)

private theorem basenameWithoutExtension_noSlash (asset : PhysicalAsset) :
    47 ∉ basenameWithoutExtension asset := by
  have hname := asset.relativePath.lastComponent_noSlash
  unfold basenameWithoutExtension
  dsimp only
  split
  · rwa [slash_mem_lowerAscii]
  · rw [slash_mem_lowerAscii]
    split
    · exact hname
    · exact fun hmem => hname (List.take_subset _ _ hmem)

private theorem stem_noSlash (asset : PhysicalAsset) : 47 ∉ stem asset := by
  have hname := basenameWithoutExtension_noSlash asset
  unfold stem
  split
  · unfold canonicalSidecarStem
    dsimp only
    split
    · exact hname
    · exact fun hmem => hname (List.take_subset _ _ hmem)
  · exact hname

private theorem basenameKey_eq (asset : PhysicalAsset) :
    basenameKey asset = front (directory asset) ++ stem asset :=
  joinPath_front (directory_fileNames asset) _

theorem basenameKey_inj {a b : PhysicalAsset} :
    basenameKey a = basenameKey b
      ↔ directory a = directory b ∧ stem a = stem b := by
  rw [basenameKey_eq, basenameKey_eq]
  constructor
  · exact front_append_inj (directory_fileNames a) (directory_fileNames b)
      (stem_noSlash a) (stem_noSlash b)
  · rintro ⟨hdirectory, hstem⟩
    rw [hdirectory, hstem]

/-- The name starts behind the last separator of a key. -/
theorem firstStemByte_eq {directory : List Bytes} {name : Bytes}
    (hname : 47 ∉ name) :
    ((rfind 47 (front directory ++ name)).map (· + 1)).getD 0
      = (front directory).length := by
  cases hfind : rfind 47 (front directory ++ name) with
  | none =>
      have hnone := rfind_eq_none hfind
      rcases front_ends directory with hnil | ⟨path, hpath⟩
      · rw [hnil]
        rfl
      · rw [hpath] at hnone
        exact absurd (by simp) hnone
  | some directoryEnd =>
      obtain ⟨back, hdrop, hback⟩ := rfind_eq_some hfind
      have hlength := congrArg List.length hdrop
      rw [List.length_drop, List.length_cons] at hlength
      have hsplit : front directory ++ name
          = ((front directory ++ name).take directoryEnd ++ [47]) ++ back := by
        rw [List.append_assoc, List.singleton_append, ← hdrop,
          List.take_append_drop]
      obtain ⟨hfront, -⟩ := append_noSlash_inj (front_ends directory)
        (.inr ⟨_, rfl⟩) hname hback hsplit
      have hend := congrArg List.length hfront
      rw [List.length_append, List.length_take, List.length_singleton] at hend
      rw [Option.map_some, Option.getD_some]
      omega

private theorem mem_prefixLengths {directory : List Bytes} {name : Bytes}
    (hname : 47 ∉ name) {length : Nat} :
    length ∈ prefixLengths (front directory ++ name)
      ↔ length < (front directory).length + name.length
        ∧ (front directory).length + minimumUnambiguousStemBytes ≤ length := by
  have hfirst := @firstStemByte_eq directory _ hname
  unfold prefixLengths
  rw [List.mem_filter, List.mem_range, List.length_append, decide_eq_true_eq]
  cases hfind : rfind 47 (front directory ++ name) with
  | none =>
      rw [hfind, Option.map_none, Option.getD_none] at hfirst
      rw [← hfirst]
  | some directoryEnd =>
      rw [hfind, Option.map_some, Option.getD_some] at hfirst
      rw [← hfirst]

/-- The prefixes a media file is found by are the keys of the sidecars
whose names may be cut from its name. -/
theorem mem_prefixes_iff {sidecar media : PhysicalAsset} :
    (∃ length ∈ prefixLengths (basenameKey media),
        (basenameKey media).take length = basenameKey sidecar)
      ↔ isCutFrom sidecar media = true := by
  have hnameM := stem_noSlash media
  have hnameS := stem_noSlash sidecar
  rw [basenameKey_eq media, basenameKey_eq sidecar]
  unfold isCutFrom
  simp only [mem_prefixLengths hnameM, decide_eq_true_eq, Bool.and_eq_true,
    beq_iff_eq, bne_iff_ne, List.isPrefixOf_iff_prefix]
  constructor
  · rintro ⟨length, ⟨hlt, hle⟩, htake⟩
    rw [List.take_append, List.take_of_length_le (by omega)] at htake
    obtain ⟨hdirectory, hstem⟩ := front_append_inj (directory_fileNames media)
      (directory_fileNames sidecar)
      (fun hmem => hnameM (List.take_subset _ _ hmem)) hnameS htake
    have hlengths := congrArg List.length hstem
    rw [List.length_take] at hlengths
    refine ⟨⟨⟨hdirectory, by omega⟩, hstem ▸ List.take_prefix _ _⟩, fun heq => ?_⟩
    rw [heq] at hlengths hlt
    omega
  · rintro ⟨⟨⟨hdirectory, hlong⟩, rest, hrest⟩, hne⟩
    have hpos : rest ≠ [] := fun hnil => hne (by rw [← hrest, hnil, List.append_nil])
    have hlengths := congrArg List.length hrest
    have hrestpos := List.length_pos_iff.2 hpos
    rw [List.length_append] at hlengths
    refine ⟨(front (directory sidecar)).length + (stem sidecar).length,
      ⟨by rw [hdirectory]; omega, by rw [hdirectory]; omega⟩, ?_⟩
    rw [hdirectory, ← hrest, List.take_length_add_append, List.take_left]

end Takeout

end PhotoBridge
