/-
Relative paths as a format (`relative_path.cpp`, `path_mapper.cpp`):
which texts are one, what the components say of the text, how a target
path is put together, and that the text shown to a user gives the path
away.

`RelativePath::Parse` looks for separators by position. `parseLoop` is
its loop, round by round; it ends before its rounds outnumber the bytes
by two, and with what `parseComponents` reads byte by byte.
-/
import PhotoBridge.Plan.Proofs.Mapping
import PhotoBridge.Plan.Proofs.Text
import PhotoBridge.Scan.Builder
import PhotoBridge.Scan.Proofs.Walker

namespace PhotoBridge

open Delimited Joining

-- ==================================================== the loop of Parse

/-- `raw.find(byte, start)`, with `none` for `npos`. -/
def findFrom (byte : UInt8) (raw : Bytes) (start : Nat) : Option Nat :=
  ((raw.drop start).findIdx? (· == byte)).map (start + ·)

/-- The `while` loop of `RelativePath::Parse`; the first argument bounds
its rounds. -/
def parseLoop (raw : Bytes) :
    Nat → Nat → List Bytes → Option (Except Status (List Bytes))
  | 0, _, _ => none
  | rounds + 1, start, components =>
      if start ≤ raw.length then
        let separator := findFrom 47 raw start
        let length := match separator with
          | none => raw.length - start
          | some position => position - start
        let component := (raw.drop start).take length
        match checkComponent component with
        | .error e => some (.error e)
        | .ok () =>
            match separator with
            | none => some (.ok (components ++ [component]))
            | some position =>
                parseLoop raw rounds (position + 1) (components ++ [component])
      else some (.ok components)

private theorem findFrom_none {raw : Bytes} {start : Nat}
    (h : findFrom 47 raw start = none) : 47 ∉ raw.drop start := by
  unfold findFrom at h
  rw [Option.map_eq_none_iff, List.findIdx?_eq_none_iff] at h
  intro hmem
  simpa using h 47 hmem

/-- A separator that is found ends a stretch without any. -/
theorem findFrom_some {raw : Bytes} {start position : Nat}
    (h : findFrom 47 raw start = some position) :
    start ≤ position ∧ position < raw.length
      ∧ 47 ∉ (raw.drop start).take (position - start)
      ∧ raw.drop start = (raw.drop start).take (position - start)
        ++ 47 :: raw.drop (position + 1) := by
  unfold findFrom at h
  obtain ⟨i, hi, rfl⟩ := Option.map_eq_some_iff.1 h
  obtain ⟨hlt, hat, hbefore⟩ := List.findIdx?_eq_some_iff_getElem.1 hi
  have hend : start + i < raw.length := by
    rw [List.length_drop] at hlt
    omega
  have hat' : (raw.drop start)[i] = 47 := beq_iff_eq.1 hat
  rw [Nat.add_sub_cancel_left]
  refine ⟨Nat.le_add_right _ _, hend, ?_, ?_⟩
  · intro hmem
    obtain ⟨j, hj, hbyte⟩ := List.mem_iff_getElem.1 hmem
    rw [List.length_take] at hj
    rw [List.getElem_take] at hbyte
    exact hbefore j (by omega) (beq_iff_eq.2 hbyte)
  · have hdrop : raw.drop (start + i + 1) = (raw.drop start).drop (i + 1) := by
      rw [List.drop_drop, Nat.add_assoc]
    rw [hdrop, ← hat', ← List.drop_eq_getElem_cons hlt,
      List.take_append_drop]

/-- The rounds of the loop read what is left from `start` on. -/
theorem parseLoop_eq (raw : Bytes) (rounds start : Nat)
    (components : List Bytes) (hstart : start ≤ raw.length)
    (hrounds : raw.length - start < rounds) :
    parseLoop raw rounds start components
      = some ((parseComponents [] (raw.drop start)).map
          (components ++ ·)) := by
  induction rounds generalizing start components with
  | zero => omega
  | succ rounds ih =>
      simp only [parseLoop, if_pos hstart]
      cases hfind : findFrom 47 raw start with
      | none =>
          have hread := parseComponents_name (findFrom_none hfind) [] []
          rw [List.append_nil, List.nil_append, parseComponents] at hread
          have htake : (raw.drop start).take (raw.length - start)
              = raw.drop start := by
            rw [← List.length_drop, List.take_length]
          simp only [htake, hread]
          cases checkComponent (raw.drop start) <;> rfl
      | some position =>
          obtain ⟨hle, hlt, hname, hsplit⟩ := findFrom_some hfind
          have hread := parseComponents_name hname []
            (47 :: raw.drop (position + 1))
          rw [← hsplit, List.nil_append, parseComponents] at hread
          simp only [beq_self_eq_true, if_true] at hread
          simp only [hread]
          cases checkComponent ((raw.drop start).take (position - start)) with
          | error e => rfl
          | ok _ =>
              simp only
              rw [ih (position + 1) _ (by omega) (by omega)]
              cases parseComponents [] (raw.drop (position + 1)) with
              | error e => rfl
              | ok tail =>
                  simp [Except.map, bind, Except.bind, pure, Except.pure]

/-- The loop ends, and reads what `parseComponents` does. -/
private theorem parseLoop_ends (raw : Bytes) :
    parseLoop raw (raw.length + 1) 0 []
      = some (parseComponents [] raw) := by
  rw [parseLoop_eq raw _ 0 [] (Nat.zero_le _) (by omega), List.drop_zero]
  cases parseComponents [] raw <;> rfl

-- ================================================== which texts are paths

/-- A text that is a relative path: names between separators. -/
def IsRelativePath (raw : Bytes) : Prop :=
  raw ≠ [] ∧ 0 ∉ raw
    ∧ ∃ components, components ≠ [] ∧ raw = pathOf components
      ∧ ∀ c ∈ components, 47 ∉ c ∧ c ≠ [] ∧ c ≠ text "." ∧ c ≠ text ".."

/-- What was read is the text, with names between its separators. -/
theorem parseComponents_ok {component raw : Bytes} {components : List Bytes}
    (h : parseComponents component raw = .ok components) :
    components ≠ [] ∧ pathOf components = component ++ raw
      ∧ ∀ c ∈ components, checkComponent c = .ok () := by
  induction raw generalizing component components with
  | nil =>
      obtain ⟨_, hcheck, hcomponents⟩ := bind_ok.1 h
      cases hcomponents
      refine ⟨List.cons_ne_nil _ _, ?_, ?_⟩
      · rw [pathOf_singleton, List.append_nil]
      · simpa using hcheck
  | cons byte rest ih =>
      rw [parseComponents] at h
      split at h
      · next hbyte =>
        obtain ⟨_, hcheck, h₁⟩ := bind_ok.1 h
        obtain ⟨tail, htail, hcomponents⟩ := bind_ok.1 h₁
        cases hcomponents
        obtain ⟨hne, hpath, hchecks⟩ := ih htail
        refine ⟨List.cons_ne_nil _ _, ?_, ?_⟩
        · rw [pathOf_cons hne, hpath, beq_iff_eq.1 hbyte, List.nil_append]
        · rw [List.forall_mem_cons]
          exact ⟨hcheck, hchecks⟩
      · obtain ⟨hne, hpath, hchecks⟩ := ih h
        refine ⟨hne, ?_, hchecks⟩
        rw [hpath, List.append_assoc]
        rfl

theorem checkComponent_ok {component : Bytes}
    (h : checkComponent component = .ok ()) :
    component ≠ [] ∧ component ≠ text "." ∧ component ≠ text ".." := by
  unfold checkComponent at h
  split at h
  · cases h
  · next hnonempty =>
    split at h
    · cases h
    · next hdots =>
      rw [Bool.or_eq_true, beq_iff_eq, beq_iff_eq, not_or] at hdots
      exact ⟨fun hnil => hnonempty (by rw [hnil]; rfl), hdots⟩

/-- What a path is made of. -/
theorem checkRelativePath_ok {raw : Bytes} {components : List Bytes}
    (h : checkRelativePath raw = .ok components) :
    raw ≠ [] ∧ 0 ∉ raw ∧ parseComponents [] raw = .ok components := by
  unfold checkRelativePath at h
  split at h
  · cases h
  · next hne =>
    split at h
    · cases h
    · next hnul =>
      split at h
      · cases h
      · refine ⟨fun hnil => hne (by rw [hnil]; rfl), ?_, h⟩
        simpa [hasNul] using hnul

/-- The bytes of a component are bytes of the path. -/
theorem mem_pathOf {components : List Bytes} {component : Bytes}
    (hmem : component ∈ components) {byte : UInt8} (hbyte : byte ∈ component) :
    byte ∈ pathOf components := by
  induction components with
  | nil => cases hmem
  | cons first rest ih =>
      cases hrest : rest with
      | nil =>
          rw [hrest, List.mem_singleton] at hmem
          rw [pathOf_singleton, ← hmem]
          exact hbyte
      | cons second tail =>
          rw [pathOf_cons (List.cons_ne_nil _ _), ← hrest, List.mem_append]
          rcases List.mem_cons.1 hmem with hfirst | htail
          · rw [← hfirst]
            exact Or.inl hbyte
          · exact Or.inr (List.mem_cons_of_mem _ (ih htail))

/-- A path is names with separators between them. -/
theorem RelativePath.names (path : RelativePath) :
    path.components ≠ [] ∧ pathOf path.components = path.bytes
      ∧ ∀ c ∈ path.components, IsFileName c := by
  obtain ⟨-, hnul, hparsed⟩ := checkRelativePath_ok path.parsed
  obtain ⟨hne, hpath, hchecks⟩ := parseComponents_ok hparsed
  rw [List.nil_append] at hpath
  refine ⟨hne, hpath, fun c hc => ?_⟩
  obtain ⟨hnonempty, hdot, hdotdot⟩ := checkComponent_ok (hchecks c hc)
  refine ⟨hnonempty, path.noSlash c hc, fun hmem => hnul ?_, hdot, hdotdot⟩
  rw [← hpath]
  exact mem_pathOf hc hmem

/-- `Parse` accepts the relative paths and nothing else. -/
theorem parse_accepts (raw : Bytes) :
    (∃ path, RelativePath.parse raw = .ok path) ↔ IsRelativePath raw := by
  constructor
  · intro h
    obtain ⟨path, hparse⟩ := h
    have hbytes := RelativePath.parse_bytes hparse
    obtain ⟨hnonempty, hnul, -⟩ := checkRelativePath_ok path.parsed
    obtain ⟨hne, hpath, hnames⟩ := path.names
    rw [hbytes] at hnonempty hnul hpath
    refine ⟨hnonempty, hnul, path.components, hne, hpath.symm, ?_⟩
    intro c hc
    have hname := hnames c hc
    exact ⟨hname.noSlash, hname.nonempty, hname.notDot, hname.notDotDot⟩
  · intro h
    obtain ⟨-, hnul, components, hne, hraw, hcomponents⟩ := h
    have hnames : ∀ c ∈ components, IsFileName c := by
      intro c hc
      obtain ⟨hslash, hnonempty, hdot, hdotdot⟩ := hcomponents c hc
      refine ⟨hnonempty, hslash, fun hmem => hnul ?_, hdot, hdotdot⟩
      rw [hraw]
      exact mem_pathOf hc hmem
    obtain ⟨path, hparse, -⟩ := parse_pathOf hne hnames
    rw [hraw]
    exact ⟨path, hparse⟩

-- ========================================================= target paths

private theorem pathOf_join {front back : List Bytes} (hfront : front ≠ [])
    (hback : back ≠ []) :
    pathOf (front ++ back) = pathOf front ++ 47 :: pathOf back := by
  induction front with
  | nil => exact absurd rfl hfront
  | cons component rest ih =>
      cases hrest : rest with
      | nil =>
          rw [List.singleton_append, pathOf_cons hback, pathOf_singleton]
      | cons second tail =>
          have hne : rest ≠ [] := by
            rw [hrest]
            exact List.cons_ne_nil _ _
          rw [← hrest, List.cons_append,
            pathOf_cons (List.append_ne_nil_of_left_ne_nil hne _), ih hne,
            pathOf_cons hne, List.append_assoc]
          rfl

/-- The components in front of every target path of a policy. -/
def IsFront (policy : MigrationPolicy) (front : List Bytes) : Prop :=
  (policy.targetPrefix = [] ∧ front = [])
    ∨ ∃ path, RelativePath.parse policy.targetPrefix = .ok path
        ∧ front = path.components

/-- The components of a source path that a policy keeps: all of them, or
the last. -/
def keptComponents (policy : MigrationPolicy) (path : RelativePath) :
    List Bytes :=
  if policy.preserveSourceDirectories then path.components
  else path.components.getLast?.toList

theorem MigrationPolicy.front_of_validate {policy : MigrationPolicy}
    (h : policy.validate = .ok ()) : ∃ front, IsFront policy front := by
  unfold MigrationPolicy.validate at h
  split at h
  · cases h
  · split at h
    · next hempty => exact ⟨[], Or.inl ⟨List.isEmpty_iff.1 hempty, rfl⟩⟩
    · obtain ⟨path, hparse, -⟩ := bind_ok.1 h
      exact ⟨path.components, Or.inr ⟨path, hparse, rfl⟩⟩

private theorem kept_spec (policy : MigrationPolicy) (path : RelativePath) :
    keptComponents policy path ≠ []
      ∧ (∀ c ∈ keptComponents policy path, IsFileName c)
      ∧ pathOf (keptComponents policy path)
        = if policy.preserveSourceDirectories then path.bytes
          else path.components.getLast?.getD [] := by
  obtain ⟨hne, hpath, hnames⟩ := path.names
  unfold keptComponents
  split
  · exact ⟨hne, hnames, hpath⟩
  · rw [List.getLast?_eq_some_getLast hne]
    refine ⟨List.cons_ne_nil _ _, ?_, pathOf_singleton _⟩
    simpa using hnames _ (List.getLast_mem hne)

/-- A valid policy maps every source path, to its prefix and what it
keeps of the source. -/
theorem buildTargetPath_components {policy : MigrationPolicy}
    {front : List Bytes} (hfront : IsFront policy front)
    (source : RelativePath) :
    ∃ target, buildTargetPath source policy = .ok target
      ∧ target.components = front ++ keptComponents policy source := by
  obtain ⟨hkept, hnames, hpath⟩ := kept_spec policy source
  unfold buildTargetPath
  rw [← hpath]
  rcases hfront with ⟨hempty, rfl⟩ | ⟨path, hparse, rfl⟩
  · rw [hempty, if_pos List.isEmpty_nil, List.nil_append, List.nil_append]
    obtain ⟨target, htarget, -, hcomponents⟩ := parse_pathOf hkept hnames
    exact ⟨target, htarget, hcomponents⟩
  · obtain ⟨hne, hprefix, hprefixNames⟩ := path.names
    have hnonempty := (checkRelativePath_ok path.parsed).1
    rw [RelativePath.parse_bytes hparse] at hprefix hnonempty
    rw [if_neg (by rw [List.isEmpty_iff]; exact hnonempty), ← hprefix,
      List.append_assoc, show text "/" = [47] from rfl, List.singleton_append,
      ← pathOf_join hne hkept]
    have hall : ∀ c ∈ path.components ++ keptComponents policy source,
        IsFileName c := by
      intro c hc
      rcases List.mem_append.1 hc with hc | hc
      · exact hprefixNames c hc
      · exact hnames c hc
    obtain ⟨target, htarget, -, hcomponents⟩ :=
      parse_pathOf (List.append_ne_nil_of_left_ne_nil hne _) hall
    exact ⟨target, htarget, hcomponents⟩

-- ====================================================== the text on show

/-- What `DisplayString` writes for one byte. -/
def displayByte (byte : UInt8) : Bytes :=
  if 0x20 ≤ byte ∧ byte ≤ 0x7E ∧ byte ≠ 92 then [byte]
  else if byte = 92 then [92, 92]
  else [92, 120, upperHexDigit (byte >>> 4), upperHexDigit (byte &&& 15)]

private theorem displayString_eq (path : RelativePath) :
    path.displayString = path.bytes.flatMap displayByte := rfl

private theorem upperHexDigit_table : ∀ a, a < 16 → ∀ b, b < 16 →
    upperHexDigit (UInt8.ofNat a) = upperHexDigit (UInt8.ofNat b) → a = b := by
  decide

private theorem upperHexDigit_inj {a b : UInt8} (ha : a.toNat < 16)
    (hb : b.toNat < 16) (h : upperHexDigit a = upperHexDigit b) : a = b := by
  apply UInt8.toNat_inj.1
  apply upperHexDigit_table a.toNat ha b.toNat hb
  rw [UInt8.ofNat_toNat, UInt8.ofNat_toNat]
  exact h

/-- The three ways a byte is shown. -/
theorem displayByte_cases (b : UInt8) :
    (b ≠ 92 ∧ displayByte b = [b]) ∨ (b = 92 ∧ displayByte b = [92, 92])
      ∨ displayByte b
          = [92, 120, upperHexDigit (b >>> 4), upperHexDigit (b &&& 15)] := by
  unfold displayByte
  split
  · next h => exact Or.inl ⟨h.2.2, rfl⟩
  · split
    · next h => exact Or.inr (Or.inl ⟨h, rfl⟩)
    · exact Or.inr (Or.inr rfl)

/-- What is shown of a byte says where it ends. -/
theorem displayByte_delimits :
    Delimits (fun _ : UInt8 => True) displayByte := by
  refine ⟨fun {a b} _ _ {r s} h => ?_⟩
  rcases displayByte_cases a with ⟨hane, ha⟩ | ⟨rfl, ha⟩ | ha
  · rcases displayByte_cases b with ⟨-, hb⟩ | ⟨-, hb⟩ | hb
    · rw [ha, hb] at h
      exact List.cons.inj h
    · rw [ha, hb] at h
      exact absurd (List.cons.inj h).1 hane
    · rw [ha, hb] at h
      exact absurd (List.cons.inj h).1 hane
  · rcases displayByte_cases b with ⟨hbne, hb⟩ | ⟨rfl, hb⟩ | hb
    · rw [ha, hb] at h
      exact absurd (List.cons.inj h).1.symm hbne
    · rw [ha] at h
      exact ⟨rfl, List.append_cancel_left h⟩
    · rw [ha, hb] at h
      simp at h
  · rcases displayByte_cases b with ⟨hbne, hb⟩ | ⟨rfl, hb⟩ | hb
    · rw [ha, hb] at h
      exact absurd (List.cons.inj h).1.symm hbne
    · rw [ha, hb] at h
      simp at h
    · rw [ha, hb] at h
      simp only [List.cons_append, List.nil_append, List.cons.injEq,
        true_and] at h
      obtain ⟨hhigh, hlow, hrest⟩ := h
      obtain ⟨hah, hal⟩ := halves_lt a
      obtain ⟨hbh, hbl⟩ := halves_lt b
      have hhigh' := upperHexDigit_inj hah hbh hhigh
      have hlow' := upperHexDigit_inj hal hbl hlow
      have hbyte := (hexDigits a).2.2.2.2
      rw [hhigh', hlow', (hexDigits b).2.2.2.2] at hbyte
      exact ⟨hbyte.symm, hrest⟩

private theorem displayByte_ne_nil (b : UInt8) : displayByte b ≠ [] := by
  rcases displayByte_cases b with ⟨-, h⟩ | ⟨-, h⟩ | h
  all_goals
    rw [h]
    exact List.cons_ne_nil _ _

/-- Different paths are shown differently. -/
theorem displayString_inj {p q : RelativePath}
    (h : p.displayString = q.displayString) : p = q := by
  rw [displayString_eq, displayString_eq] at h
  exact RelativePath.eq_of_bytes
    (displayByte_delimits.flatMap_injective displayByte_ne_nil
      (fun _ _ => trivial) (fun _ _ => trivial) h)

-- ============================================================ all of it

/-- The laws of relative paths. -/
structure PathLaws : Prop where
  /-- The loop of `Parse` ends on every text, with the components. -/
  ends : ∀ raw, parseLoop raw (raw.length + 1) 0 []
    = some (parseComponents [] raw)
  accepts : ∀ raw,
    (∃ path, RelativePath.parse raw = .ok path) ↔ IsRelativePath raw
  joined : ∀ raw path, RelativePath.parse raw = .ok path →
    path.bytes = raw ∧ pathOf path.components = path.bytes
  built : ∀ policy : MigrationPolicy, policy.validate = .ok () →
    ∃ front, IsFront policy front ∧ ∀ source : RelativePath,
      ∃ target, buildTargetPath source policy = .ok target
        ∧ target.components = front ++ keptComponents policy source
  shown : ∀ p q : RelativePath, p.displayString = q.displayString → p = q

/-- Relative paths and target paths are what their functions say. -/
theorem relativePath_laws : PathLaws where
  ends := parseLoop_ends
  accepts := parse_accepts
  joined := fun _ path h => ⟨RelativePath.parse_bytes h, path.names.2.1⟩
  built := fun policy h => by
    obtain ⟨front, hfront⟩ := MigrationPolicy.front_of_validate h
    exact ⟨front, hfront, buildTargetPath_components hfront⟩
  shown := fun _ _ h => displayString_inj h

end PhotoBridge
