/-
The walk emits the tree: with calls that succeed, walking a directory is
adding what the traversal of the tree lists, in its order and whatever
the sink is, and the stack of components is left as it was found
(`walkDirectory_eq`). The induction is along the tree; at each directory
a second one goes along its sorted names.
-/
import PhotoBridge.Lib.Joining
import PhotoBridge.Plan.Proofs.Canonical
import PhotoBridge.Scan.Walker

namespace PhotoBridge

open Joining KeyTree Sorting

-- =============================================================== paths

/-- The first component of a path. -/
theorem pathOf_cons {component : Bytes} {rest : List Bytes} (h : rest ≠ []) :
    pathOf (component :: rest) = component ++ 47 :: pathOf rest := by
  unfold pathOf
  rw [List.intercalate_cons_of_ne_nil h, List.append_assoc]
  rfl

@[simp] theorem pathOf_singleton (name : Bytes) : pathOf [name] = name :=
  List.intercalate_singleton

/-- The last component of a path. -/
theorem pathOf_append {parents : List Bytes} (h : parents ≠ [])
    (name : Bytes) :
    pathOf (parents ++ [name]) = pathOf parents ++ 47 :: name := by
  induction parents with
  | nil => exact absurd rfl h
  | cons component rest ih =>
      cases hrest : rest with
      | nil =>
          show pathOf [component, name] = pathOf [component] ++ 47 :: name
          rw [pathOf_cons (List.cons_ne_nil _ _), pathOf_singleton,
            pathOf_singleton]
      | cons second tail =>
          have hne : rest ≠ [] := by
            rw [hrest]
            exact List.cons_ne_nil _ _
          rw [← hrest, List.cons_append,
            pathOf_cons (List.append_ne_nil_of_left_ne_nil hne _), ih hne,
            pathOf_cons hne, List.append_assoc]
          rfl

/-- The loop of `JoinPath` over components that are not empty. -/
theorem joinPath_fold {components : List Bytes} {result : Bytes}
    (hresult : result ≠ []) (h : ∀ c ∈ components, c ≠ []) :
    components.foldl (fun result component =>
        (if result.isEmpty then result else result ++ [47]) ++ component)
      result
      = pathOf (result :: components) := by
  induction components generalizing result with
  | nil => exact (pathOf_singleton _).symm
  | cons component rest ih =>
      have hsep : (if result.isEmpty then result else result ++ [47])
          = result ++ [47] := by
        cases result with
        | nil => exact absurd rfl hresult
        | cons b bs => rfl
      rw [List.foldl_cons, hsep, ih]
      · rw [pathOf_cons (List.cons_ne_nil _ _)]
        cases rest with
        | nil => simp [pathOf]
        | cons second tail =>
            rw [pathOf_cons (List.cons_ne_nil _ _),
              pathOf_cons (List.cons_ne_nil _ _)]
            simp
      · exact List.append_ne_nil_of_right_ne_nil _ (h _ List.mem_cons_self)
      · exact fun c hc => h c (List.mem_cons_of_mem _ hc)

/-- The path of some components is not empty. -/
theorem pathOf_ne_nil {components : List Bytes} (hne : components ≠ [])
    (h : ∀ c ∈ components, c ≠ []) : pathOf components ≠ [] := by
  cases components with
  | nil => exact absurd rfl hne
  | cons component rest =>
      have hcomponent := h component List.mem_cons_self
      cases rest with
      | nil =>
          intro heq
          rw [pathOf_singleton] at heq
          exact hcomponent heq
      | cons second tail =>
          rw [pathOf_cons (List.cons_ne_nil _ _)]
          exact List.append_ne_nil_of_left_ne_nil hcomponent _

/-- The walk joins a name to its parents as a path is written. -/
theorem joinPath_eq {parents : List Bytes} (h : ∀ c ∈ parents, c ≠ [])
    (name : Bytes) : joinPath parents name = pathOf (parents ++ [name]) := by
  cases parents with
  | nil => exact (pathOf_singleton _).symm
  | cons component rest =>
      have hcomponent := h component List.mem_cons_self
      have hrest : ∀ c ∈ rest, c ≠ [] :=
        fun c hc => h c (List.mem_cons_of_mem _ hc)
      have hnonempty := pathOf_ne_nil (List.cons_ne_nil component rest) h
      unfold joinPath
      simp only [List.foldl_cons, List.isEmpty_nil, if_true, List.nil_append]
      rw [joinPath_fold hcomponent hrest, pathOf_append (List.cons_ne_nil _ _)]
      cases hpath : pathOf (component :: rest) with
      | nil => exact absurd hpath hnonempty
      | cons b bs => simp

/-- A byte that is not found is not there. -/
theorem rfind_eq_none {byte : UInt8} {s : Bytes} (h : rfind byte s = none) :
    byte ∉ s := by
  unfold rfind at h
  rw [Option.map_eq_none_iff, List.findIdx?_eq_none_iff] at h
  intro hmem
  have hne := h byte (List.mem_reverse.2 hmem)
  rw [beq_self_eq_true] at hne
  cases hne

/-- The last of these bytes, and what stands behind it. -/
theorem rfind_eq_some {byte : UInt8} {s : Bytes} {i : Nat}
    (h : rfind byte s = some i) : ∃ back, s.drop i = byte :: back ∧ byte ∉ back := by
  unfold rfind at h
  obtain ⟨j, hj, rfl⟩ := Option.map_eq_some_iff.1 h
  obtain ⟨hlt, hbyte, hbefore⟩ := List.findIdx?_eq_some_iff_getElem.1 hj
  rw [List.length_reverse] at hlt
  rw [List.getElem_reverse] at hbyte
  have hlength : s.length - 1 - j < s.length := by omega
  refine ⟨s.drop (s.length - 1 - j + 1), ?_, fun hmem => ?_⟩
  · rw [List.drop_eq_getElem_cons hlength, beq_iff_eq.1 hbyte]
  · obtain ⟨k, hk, hat⟩ := List.mem_iff_getElem.1 hmem
    rw [List.getElem_drop] at hat
    rw [List.length_drop] at hk
    -- counted from the end, the byte stands before `j`
    refine hbefore (j - 1 - k) (by omega) (beq_iff_eq.2 ?_)
    rw [List.getElem_reverse, ← hat]
    congr 1
    omega

/-- A name is read as one component. -/
theorem parseComponents_name {name : Bytes} (h : 47 ∉ name)
    (component rest : Bytes) :
    parseComponents component (name ++ rest)
      = parseComponents (component ++ name) rest := by
  induction name generalizing component with
  | nil => rw [List.nil_append, List.append_nil]
  | cons b bs ih =>
      have hb : (b == 47) = false := by
        rw [beq_eq_false_iff_ne]
        exact fun heq => h (heq ▸ List.mem_cons_self)
      have hbs : 47 ∉ bs := fun hmem => h (List.mem_cons_of_mem _ hmem)
      rw [List.cons_append, parseComponents]
      simp only [hb, Bool.false_eq_true, if_false]
      rw [ih hbs, List.append_assoc]
      rfl

/-- A file name is a component. -/
theorem IsFileName.checkComponent {name : Bytes} (h : IsFileName name) :
    checkComponent name = .ok () := by
  unfold PhotoBridge.checkComponent
  rw [if_neg, if_neg]
  · simp [h.notDot, h.notDotDot]
  · simp [h.nonempty]

/-- A path is parsed into the components it was written from. -/
theorem parseComponents_pathOf {components : List Bytes}
    (hne : components ≠ []) (h : ∀ c ∈ components, IsFileName c) :
    parseComponents [] (pathOf components) = .ok components := by
  induction components with
  | nil => exact absurd rfl hne
  | cons component rest ih =>
      have hname := h component List.mem_cons_self
      have hcheck := hname.checkComponent
      cases hrest : rest with
      | nil =>
          have hread := parseComponents_name hname.noSlash [] []
          rw [List.append_nil, List.nil_append] at hread
          rw [pathOf_singleton, hread, parseComponents,
            hcheck]
          rfl
      | cons second tail =>
          have hrestne : rest ≠ [] := by
            rw [hrest]
            exact List.cons_ne_nil _ _
          rw [← hrest, pathOf_cons hrestne, parseComponents_name hname.noSlash,
            List.nil_append, parseComponents, hcheck,
            ih hrestne fun c hc => h c (List.mem_cons_of_mem _ hc)]
          rfl

/-- A path of file names does not begin with a slash. -/
private theorem pathOf_head {components : List Bytes} (hne : components ≠ [])
    (h : ∀ c ∈ components, IsFileName c) :
    (pathOf components).head? ≠ some 47 := by
  cases components with
  | nil => exact absurd rfl hne
  | cons component rest =>
      have hname := h component List.mem_cons_self
      cases hcomponent : component with
      | nil => exact absurd hcomponent hname.nonempty
      | cons b bs =>
          have hb : b ≠ 47 := by
            intro heq
            apply hname.noSlash
            rw [hcomponent, heq]
            exact List.mem_cons_self
          cases rest with
          | nil => simpa [pathOf] using hb
          | cons second tail =>
              rw [pathOf_cons (List.cons_ne_nil _ _)]
              simpa using hb

/-- A path of file names has no NUL in it. -/
private theorem hasNul_pathOf {components : List Bytes}
    (h : ∀ c ∈ components, IsFileName c) :
    hasNul (pathOf components) = false := by
  induction components with
  | nil => rfl
  | cons component rest ih =>
      have hname := h component List.mem_cons_self
      have hih := ih fun c hc => h c (List.mem_cons_of_mem _ hc)
      have hnul : component.contains 0 = false := by
        simpa using hname.noNul
      cases hrest : rest with
      | nil =>
          rw [pathOf_singleton]
          exact hnul
      | cons second tail =>
          rw [pathOf_cons (List.cons_ne_nil _ _), ← hrest]
          unfold hasNul at hih ⊢
          simpa using ⟨hname.noNul, by simpa using hih⟩

/-- The path of a file in a tree is one, with its names as components. -/
theorem parse_pathOf {components : List Bytes} (hne : components ≠ [])
    (h : ∀ c ∈ components, IsFileName c) :
    ∃ path, RelativePath.parse (pathOf components) = .ok path
      ∧ path.bytes = pathOf components ∧ path.components = components := by
  have hnonempty : pathOf components ≠ [] :=
    pathOf_ne_nil hne fun c hc => (h c hc).nonempty
  have hcheck : checkRelativePath (pathOf components) = .ok components := by
    unfold checkRelativePath
    rw [if_neg, if_neg, if_neg, parseComponents_pathOf hne h]
    · simpa using pathOf_head hne h
    · rw [hasNul_pathOf h]
      exact Bool.false_ne_true
    · simpa using hnonempty
  unfold RelativePath.parse
  split
  · next found hfound =>
    rw [hcheck] at hfound
    cases hfound
    exact ⟨_, rfl, rfl, rfl⟩
  · next e herror =>
    rw [hcheck] at herror
    cases herror

/-- The names on the way to a file are names. -/
theorem Within.names {entries : Entries} {components : List Bytes}
    {node : Node} (h : Within entries components node)
    (hdirs : Throughout Stat.isDirectory IsDirectory entries) :
    components ≠ [] ∧ ∀ c ∈ components, IsFileName c := by
  induction h with
  | @here entries name node hmem =>
      have hname := hdirs.here.names _ hmem
      exact ⟨List.cons_ne_nil _ _, by simpa using hname⟩
  | @down entries name rest node parent hmem henter hrest ih =>
      have hname := hdirs.here.names _ hmem
      have hih := ih (hdirs.child hmem henter)
      refine ⟨List.cons_ne_nil _ _, fun c hc => ?_⟩
      rcases List.mem_cons.1 hc with hc | hc
      · rw [hc]
        exact hname
      · exact hih.2 c hc

-- ============================================================ identities

/-- The product and the sum stay in range. -/
theorem toInt_nanoseconds {timestamp : Timespec}
    (h : timestamp.Representable) :
    (timestamp.sec * 1000000000 + timestamp.nsec).toInt
      = timestamp.sec.toInt * 1000000000 + timestamp.nsec.toInt := by
  have hsec := h.sec_ge
  have hnonneg := h.nsec_nonneg
  have hfits := h.fits
  have hunit : (1000000000 : Int64).toInt = 1000000000 := by decide
  have hproduct : (timestamp.sec * 1000000000).toInt
      = timestamp.sec.toInt * 1000000000 := by
    rw [Int64.toInt_mul, hunit]
    exact Int.bmod_eq_of_le (by omega) (by omega)
  rw [Int64.toInt_add, hproduct]
  exact Int.bmod_eq_of_le (by omega) (by omega)

/-- A time that fits is converted exactly. -/
private theorem timespecToNanoseconds_ok {timestamp : Timespec}
    (h : timestamp.Representable) (fieldName : String) :
    ∃ value, timespecToNanoseconds timestamp fieldName = .ok value
      ∧ value.toInt
        = timestamp.sec.toInt * 1000000000 + timestamp.nsec.toInt := by
  refine ⟨timestamp.sec * 1000000000 + timestamp.nsec, ?_,
    toInt_nanoseconds h⟩
  have hsec := h.sec_ge
  have hnonneg := h.nsec_nonneg
  have hlt := h.nsec_lt
  have hfits := h.fits
  have hunit : (1000000000 : Int64).toInt = 1000000000 := by decide
  have hmax : Int64.maxValue / 1000000000 = 9223372036 := by decide
  have hmin : Int64.minValue / 1000000000 = -9223372036 := by decide
  have hrest : Int64.maxValue % 1000000000 = 854775807 := by decide
  have hmax' : (9223372036 : Int64).toInt = 9223372036 := by decide
  have hmin' : (-9223372036 : Int64).toInt = -9223372036 := by decide
  have hrest' : (854775807 : Int64).toInt = 854775807 := by decide
  unfold timespecToNanoseconds
  simp only [hmax, hmin, hrest]
  rw [if_neg, if_neg]
  · simp only [Bool.or_eq_true, Bool.and_eq_true, decide_eq_true_eq,
      beq_iff_eq, Int64.lt_iff_toInt_lt, hmax', hmin', hrest']
    intro hor
    rcases hor with (hover | hunder) | ⟨hlast, hover⟩
    · omega
    · omega
    · rw [hlast, hmax'] at hfits
      omega
  · simp only [Bool.or_eq_true, decide_eq_true_eq, Int64.lt_iff_toInt_lt,
      Int64.le_iff_toInt_le, hunit, Int64.toInt_zero]
    omega

/-- A number that is not negative is converted exactly. -/
private theorem toUint64_ok {value : Int64} (h : 0 ≤ value.toInt)
    (fieldName : String) :
    ∃ result, toUint64 value fieldName = .ok result
      ∧ (result.toNat : Int) = value.toInt := by
  refine ⟨value.toUInt64, ?_, ?_⟩
  · unfold toUint64
    rw [if_neg]
    rw [Int64.lt_iff_toInt_lt, Int64.toInt_zero]
    omega
  · have hle : (0 : Int64) ≤ value := by
      rw [Int64.le_iff_toInt_le, Int64.toInt_zero]
      exact h
    rw [Int64.toNat_toUInt64_of_le hle, Int64.toNatClampNeg]
    exact Int.toNat_of_nonneg h

/-- What is representable is represented. -/
theorem fileIdentityFromStat_ok {info : Stat} (h : info.Representable) :
    ∃ identity, fileIdentityFromStat info = .ok identity
      ∧ info.Identifies identity := by
  obtain ⟨mtime, hmtime, hmtimeNs⟩ := timespecToNanoseconds_ok h.mtim "mtime"
  obtain ⟨ctime, hctime, hctimeNs⟩ := timespecToNanoseconds_ok h.ctim "ctime"
  obtain ⟨size, hsize, hsizeInt⟩ := toUint64_ok h.size "size"
  refine ⟨⟨info.dev, info.ino, size, mtime, ctime, none⟩, ?_, rfl, rfl,
    hsizeInt, hmtimeNs, hctimeNs, rfl⟩
  unfold fileIdentityFromStat
  rw [hmtime, hctime, hsize]
  rfl

-- ============================================================== walking

section Walking

variable {m : Type → Type} [Monad m] [MonadExceptOf Status m] [LawfulMonad m]
variable (strerror : Nat → Bytes) (add : DirectoryEntry → m Unit)

/-- What the walk does at one entry of the tree. -/
def visit (found : List Bytes × Node) : m Unit := do
  let identity ← ofExcept (fileIdentityFromStat found.2.value)
  let relativePath ← ofExcept (RelativePath.parse (pathOf found.1))
  add ⟨relativePath, identity, found.2.value.kind⟩

/-- The entries of a tree, in the order of the walk. -/
abbrev entriesBelow (entries : Entries) (above : List Bytes) :
    List (List Bytes × Node) :=
  listing Stat.isDirectory bytesLess entries above

omit [MonadExceptOf Status m] in
/-- The names of a directory are read in full. -/
private theorem readNames_succeeds {names : List Bytes}
    (h : ∀ name ∈ names, name ≠ text "." ∧ name ≠ text "..") :
    readNames (succeeds (m := m)) names = pure names := by
  induction names with
  | nil => exact pure_bind _ _
  | cons name rest ih =>
      have hname := h name List.mem_cons_self
      have hdots : ¬(name = text "." ∨ name = text "..") := by
        rintro (hdot | hdotdot)
        · exact hname.1 hdot
        · exact hname.2 hdotdot
      unfold readNames succeeds
      rw [pure_bind]
      have hrest := ih fun other hother =>
        h other (List.mem_cons_of_mem _ hother)
      unfold succeeds at hrest
      rw [hrest, pure_bind, if_neg hdots]

omit [MonadExceptOf Status m] in
/-- The two dots are left out. -/
theorem readNames_dots {names : List Bytes}
    (h : ∀ name ∈ names, name ≠ text "." ∧ name ≠ text "..") :
    readNames (succeeds (m := m)) (text "." :: text ".." :: names)
      = pure names := by
  have hnames := readNames_succeeds (m := m) h
  unfold succeeds at hnames ⊢
  simp [readNames, hnames]

/-- Sorting the names is sorting the entries by their names. -/
theorem sortBy_names (entries : Entries) :
    sortBy bytesLess (entries.map Prod.fst)
      = (sortBy (byKey bytesLess) entries).map Prod.fst := by
  have hcompare := bytesLess_comparator
  have hperm := (perm_sortBy (byKey bytesLess) entries).map Prod.fst
  refine eq_of_sorted (bytesLess_separates _) ?_
    (pairwise_sortBy hcompare _) ?_
  · exact (perm_sortBy bytesLess _).trans hperm.symm
  · exact List.pairwise_map.2 (pairwise_sortBy (hcompare.comap Prod.fst) _)

/-- Walking a directory is adding what the traversal lists. -/
theorem walkDirectory_eq {entries : Entries}
    (hdirs : Throughout Stat.isDirectory IsDirectory entries)
    {parents : List Bytes} (hparents : ∀ c ∈ parents, c ≠ []) :
    walkDirectory strerror (succeeds (m := m)) add entries parents
      = forM (entriesBelow entries parents) (visit add)
        >>= fun _ => pure parents := by
  induction entries using entries_induction generalizing parents with
  | step entries ih =>
    have hnames : ∀ name ∈ entries.map Prod.fst,
        name ≠ text "." ∧ name ≠ text ".." := by
      intro name hname
      obtain ⟨entry, hentry, rfl⟩ := List.mem_map.1 hname
      have hvalid := hdirs.here.names entry hentry
      exact ⟨hvalid.notDot, hvalid.notDotDot⟩
    rw [walkDirectory, readNames_dots hnames]
    unfold succeeds
    simp only [pure_bind]
    rw [sortBy_names, List.foldlM_map]
    unfold entriesBelow
    rw [listing_eq]
    -- the names still to come are names of the directory
    have hrest : ∀ entry ∈ sortBy (byKey bytesLess) entries, entry ∈ entries :=
      fun entry => mem_sortBy.1
    generalize sortBy (byKey bytesLess) entries = rest at hrest ⊢
    induction rest with
    | nil => simp
    | cons entry rest ihrest =>
      have hentry := hrest entry List.mem_cons_self
      have hfind : entries.find? (·.1 == entry.1) = some entry :=
        find?_key hdirs.here.distinct hentry
      have htail := ihrest fun other hother =>
        hrest other (List.mem_cons_of_mem _ hother)
      rw [List.foldlM_cons, List.flatMap_cons, List.forM_append, bind_assoc,
        ← htail]
      split
      · next hnone =>
        rw [hfind] at hnone
        cases hnone
      · next found hsome =>
        rw [hfind] at hsome
        cases hsome
        rw [joinPath_eq hparents]
        simp only [listingOf, List.forM_cons, visit, bind_assoc]
        refine bind_congr fun identity => bind_congr fun path => ?_
        refine bind_congr fun _ => ?_
        cases hkind : entry.2.value.isDirectory with
        | false =>
            have hne : entry.2.value.kind ≠ .directory :=
              of_decide_eq_false hkind
            simp [hne]
        | true =>
            have heq : entry.2.value.kind = .directory :=
              of_decide_eq_true hkind
            have hnames' : ∀ c ∈ parents ++ [entry.1], c ≠ [] := by
              intro c hc
              rcases List.mem_append.1 hc with hc | hc
              · exact hparents c hc
              · rw [List.mem_singleton.1 hc]
                exact (hdirs.here.names entry hentry).nonempty
            have hwalk := ih entry hentry (hdirs.child hentry hkind) hnames'
            unfold succeeds at hwalk
            simp only [heq, ne_eq, not_true_eq_false, if_false, if_true]
            rw [hwalk]
            simp only [bind_assoc, pure_bind, List.dropLast_concat]

/-- The walk of a directory tree. -/
theorem walk_eq (tree : DirectoryTree) :
    walk strerror (succeeds (m := m)) add tree.entries
      = forM (entriesBelow tree.entries []) (visit add) := by
  unfold walk
  rw [walkDirectory_eq strerror add tree.directories (by simp), bind_assoc]
  simp

end Walking

-- ============================================================= emission

/-- What the walk reads of a file. -/
structure Visited (found : List Bytes × Node) (entry : DirectoryEntry) :
    Prop where
  identity : fileIdentityFromStat found.2.value = .ok entry.identity
  path : RelativePath.parse (pathOf found.1) = .ok entry.relativePath
  kind : entry.kind = found.2.value.kind
  entryOf : EntryOf found.1 found.2 entry

/-- What is visited is added. -/
private theorem visit_eq {m : Type → Type} [Monad m] [MonadExceptOf Status m]
    [LawfulMonad m] {add : DirectoryEntry → m Unit}
    {found : List Bytes × Node} {entry : DirectoryEntry}
    (h : Visited found entry) : visit add found = add entry := by
  unfold visit
  rw [h.identity, h.path, ← h.kind]
  show (pure entry.identity >>= fun identity =>
    pure entry.relativePath >>= fun relativePath =>
      add ⟨relativePath, identity, entry.kind⟩) = _
  rw [pure_bind, pure_bind]

/-- All that are visited are added, in their order. -/
private theorem forM_visit {m : Type → Type} [Monad m] [MonadExceptOf Status m]
    [LawfulMonad m] {add : DirectoryEntry → m Unit}
    {found : List (List Bytes × Node)} {emitted : List DirectoryEntry}
    (h : List.Forall₂ Visited found emitted) :
    forM found (visit add) = forM emitted add := by
  induction h with
  | nil => rfl
  | cons hhead htail ih =>
      rw [List.forM_cons, List.forM_cons, visit_eq hhead, ih]

/-- What is within the tree is visited. -/
private theorem exists_visited {tree : DirectoryTree} {components : List Bytes}
    {node : Node} (h : Within tree.entries components node)
    (hrep : node.value.Representable) :
    ∃ entry, Visited (components, node) entry := by
  obtain ⟨hne, hnames⟩ := Within.names h tree.directories
  obtain ⟨identity, hidentity, hidentifies⟩ := fileIdentityFromStat_ok hrep
  obtain ⟨path, hpath, hbytes, hcomponents⟩ := parse_pathOf hne hnames
  exact ⟨⟨path, identity, node.value.kind⟩, hidentity, hpath, rfl,
    hbytes, hcomponents, hidentifies, rfl⟩

/-- What is below the root is what is within the tree. -/
theorem mem_entriesBelow {tree : DirectoryTree} {components : List Bytes}
    {node : Node} :
    (components, node) ∈ entriesBelow tree.entries []
      ↔ Within tree.entries components node := by
  unfold entriesBelow
  rw [mem_listing]
  simp

/-- The names of the branches are distinct keys. -/
theorem keyed_of_isDirectory {entries : Entries} (h : IsDirectory entries) :
    Keyed bytesLess entries :=
  ⟨h.distinct, bytesLess_separates _⟩

/-- The names of each directory are in order. -/
private theorem keyed_tree (tree : DirectoryTree) :
    Throughout Stat.isDirectory (Keyed bytesLess) tree.entries :=
  ⟨keyed_of_isDirectory tree.directories.here, fun hbelow henter =>
    keyed_of_isDirectory (tree.directories.down hbelow henter)⟩

/-- The walk meets every path once. -/
theorem nodup_entriesBelow (tree : DirectoryTree) :
    ((entriesBelow tree.entries []).map Prod.fst).Nodup := by
  rw [List.Nodup, List.pairwise_map]
  refine (pairwise_listing bytesLess_comparator (keyed_tree tree) []).imp ?_
  intro a b hless heq
  rw [heq] at hless
  exact pathLess_asymm bytesLess_comparator hless hless

/-- What the walk visits is what it emits. -/
private theorem emits_of_visited {tree : DirectoryTree}
    {emitted : List DirectoryEntry}
    (h : List.Forall₂ Visited (entriesBelow tree.entries []) emitted) :
    Emits tree emitted := by
  have hpaths : (entriesBelow tree.entries []).map Prod.fst
      = emitted.map DirectoryEntry.components :=
    forall₂_map_eq h fun found entry hvisited =>
      hvisited.entryOf.components.symm
  have hsorted : (emitted.map DirectoryEntry.components).Pairwise
      (PathLess bytesLess) := by
    rw [← hpaths, List.pairwise_map]
    exact pairwise_listing bytesLess_comparator (keyed_tree tree) []
  have horder : ∀ first ∈ emitted, ∀ second ∈ emitted,
      PathLess bytesLess first.components second.components →
      [first, second].Sublist emitted := by
    intro first hfirst second hsecond hless
    have hentries : emitted.Pairwise fun a b =>
        PathLess bytesLess a.components b.components :=
      List.pairwise_map.1 hsorted
    exact sublist_of_pairwise
      (fun hab => pathLess_asymm bytesLess_comparator hab)
      hentries hfirst hsecond hless
  refine ⟨?_, ?_, ?_, ?_, ?_⟩
  · intro entry hentry
    obtain ⟨found, hfound, hvisited⟩ := forall₂_exists_left h hentry
    exact ⟨found.1, found.2, mem_entriesBelow.1 hfound, hvisited.entryOf⟩
  · intro components node hwithin
    obtain ⟨entry, hentry, hvisited⟩ :=
      forall₂_exists_right h (mem_entriesBelow.2 hwithin)
    exact ⟨entry, hentry, hvisited.entryOf⟩
  · rw [← hpaths]
    exact nodup_entriesBelow tree
  · intro parent hparent child hchild hprefix hne
    refine horder parent hparent child hchild ?_
    obtain ⟨rest, hrest⟩ := hprefix
    cases rest with
    | nil =>
        rw [List.append_nil] at hrest
        exact absurd hrest hne
    | cons key keys =>
        rw [← hrest]
        exact pathLess_continued _ _ _
  · intro first hfirst second hsecond parents name name' hname hname' hless
    refine horder first hfirst second hsecond ?_
    rw [hname, hname']
    exact pathLess_parted parents hless [] []

/-- A walk of a tree all of whose files can be expressed emits the tree,
whatever the sink. -/
theorem walk_emits {tree : DirectoryTree}
    (hrep : ∀ {components node}, Within tree.entries components node →
      node.value.Representable) (strerror : Nat → Bytes) :
    ∃ emitted : List DirectoryEntry, Emits tree emitted
      ∧ ∀ (m : Type → Type) [Monad m] [MonadExceptOf Status m]
          [LawfulMonad m] (add : DirectoryEntry → m Unit),
          walk strerror succeeds add tree.entries = forM emitted add := by
  have hvisited : ∀ found ∈ entriesBelow tree.entries [],
      ∃ entry, Visited found entry := fun found hfound =>
    exists_visited (mem_entriesBelow.1 hfound)
      (hrep (mem_entriesBelow.1 hfound))
  obtain ⟨emitted, hemitted⟩ := exists_forall₂ hvisited
  refine ⟨emitted, emits_of_visited hemitted, ?_⟩
  intro m _ _ _ add
  rw [walk_eq, forM_visit hemitted]

end PhotoBridge
