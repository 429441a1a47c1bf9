/-
What the receiver calls files. Names of one session are told apart by
numbers (`freeName_free`); whatever the client asks for, a session's
directory and the file in it are single components of a path
(`System.named`), so the scanner's filter sees no more of a final path
than the end of its last component (`staging_finalPath`).
-/
import PhotoBridge.Plan.Proofs.Text
import PhotoBridge.Scan.Proofs.Walker
import PhotoBridge.Upload.Proofs.Receiver

namespace PhotoBridge.Upload

open Concurrent SharedConnection

-- ============================================================= suffixes

/-- Where `WithCollisionSuffix` puts a number: before the extension, if
something stands before that. -/
structure Parted (value front back : Bytes) : Prop where
  whole : value = front ++ back
  numbered : ∀ k, k ≠ 1 → withCollisionSuffix value k
    = front ++ (text "__" ++ decimal k) ++ back
  back : back = [] ∧ (46 ∉ value ∨ ∃ rest, value = 46 :: rest ∧ 46 ∉ rest)
    ∨ ∃ rest, back = 46 :: rest ∧ 46 ∉ rest ∧ front ≠ []

theorem exists_parted (value : Bytes) :
    ∃ front back, Parted value front back := by
  cases hdot : rfind 46 value with
  | none =>
      refine ⟨value, [], (List.append_nil _).symm, fun k hk => ?_,
        .inl ⟨rfl, .inl (rfind_eq_none hdot)⟩⟩
      simp only [withCollisionSuffix, if_neg hk, hdot, List.append_nil]
  | some extension =>
      obtain ⟨rest, hdrop, hrest⟩ := rfind_eq_some hdot
      by_cases hzero : extension = 0
      · subst hzero
        refine ⟨value, [], (List.append_nil _).symm, fun k hk => ?_,
          .inl ⟨rfl, .inr ⟨rest, hdrop, hrest⟩⟩⟩
        simp only [withCollisionSuffix, if_neg hk, hdot, if_true,
          List.append_nil]
      · have hlength := congrArg List.length hdrop
        rw [List.length_drop, List.length_cons] at hlength
        refine ⟨value.take extension, value.drop extension,
          (List.take_append_drop _ _).symm, fun k hk => ?_,
          .inr ⟨rest, hdrop, hrest, fun hnil => ?_⟩⟩
        · simp only [withCollisionSuffix, if_neg hk, hdot, if_neg hzero]
        · rw [List.take_eq_nil_iff] at hnil
          rcases hnil with hnil | hnil
          · exact hzero hnil
          · rw [hnil, List.length_nil] at hlength
            omega

-- ============================================================== numbers

/-- Two suffixes make two names. -/
theorem withCollisionSuffix_inj {value : Bytes} {k k' : Nat}
    (h : withCollisionSuffix value k = withCollisionSuffix value k') :
    k = k' := by
  obtain ⟨front, back, hparted⟩ := exists_parted value
  have hone : withCollisionSuffix value 1 = front ++ back := hparted.whole
  have hlonger : ∀ n, (front ++ back).length
      < (front ++ (text "__" ++ decimal n) ++ back).length := by
    intro n
    have hpos : 0 < (text "__").length := by decide
    simp only [List.length_append]
    omega
  by_cases hk : k = 1
  · by_cases hk' : k' = 1
    · rw [hk, hk']
    · rw [hk, hone, hparted.numbered k' hk'] at h
      exact absurd (congrArg List.length h) (hlonger k').ne
  · by_cases hk' : k' = 1
    · rw [hk', hone, hparted.numbered k hk] at h
      exact absurd (congrArg List.length h) (hlonger k).ne'
    · rw [hparted.numbered k hk, hparted.numbered k' hk'] at h
      have hnumber := List.append_cancel_left (List.append_cancel_right h)
      exact decimal_inj (List.append_cancel_left hnumber)

/-- A name still used after the loop: every candidate was. -/
theorem candidates_mem {used : List Bytes} {safe : Bytes} {fuel suffix : Nat}
    (h : freeName used safe fuel suffix ∈ used) {i : Nat} (hi : i ≤ fuel) :
    withCollisionSuffix safe (suffix + i) ∈ used := by
  induction fuel generalizing suffix i with
  | zero =>
      obtain rfl : i = 0 := by omega
      exact h
  | succ fuel ih =>
      rw [freeName] at h
      split at h
      · rename_i hmem
        cases i with
        | zero => exact hmem
        | succ i =>
            have hnext := ih h (i := i) (by omega)
            rw [show suffix + (i + 1) = suffix + 1 + i by omega]
            exact hnext
      · rename_i hfree
        exact absurd h hfree

/-- The loop over suffixes finds a name that is not used. -/
theorem freeName_free (used : List Bytes) (safe : Bytes) (suffix : Nat) :
    freeName used safe used.length suffix ∉ used := by
  intro h
  have hinj : Function.Injective fun i : Nat =>
      withCollisionSuffix safe (suffix + i) := fun i j hij => by
    have := withCollisionSuffix_inj hij
    omega
  have hsub : (Finset.range (used.length + 1)).image
      (fun i => withCollisionSuffix safe (suffix + i)) ⊆ used.toFinset := by
    intro name hname
    obtain ⟨i, hi, rfl⟩ := Finset.mem_image.1 hname
    rw [Finset.mem_range] at hi
    exact List.mem_toFinset.2 (candidates_mem h (by omega))
  have hcard := Finset.card_le_card hsub
  rw [Finset.card_image_of_injective _ hinj, Finset.card_range] at hcard
  have hle := List.toFinset_card_le used
  omega

/-- The name found is one of the candidates. -/
theorem freeName_candidate (used : List Bytes) (safe : Bytes)
    (fuel suffix : Nat) :
    ∃ k, suffix ≤ k ∧ freeName used safe fuel suffix
      = withCollisionSuffix safe k := by
  induction fuel generalizing suffix with
  | zero => exact ⟨suffix, le_rfl, rfl⟩
  | succ fuel ih =>
      rw [freeName]
      split
      · obtain ⟨k, hk, hname⟩ := ih (suffix + 1)
        exact ⟨k, by omega, hname⟩
      · exact ⟨suffix, le_rfl, rfl⟩

-- ============================================================ safe names

/-- A single component of a path. -/
def IsComponent (name : Bytes) : Prop := name ≠ [] ∧ 47 ∉ name

theorem safeFilename_ok {original safe : Bytes}
    (h : safeFilename original = .ok safe) : safe = original ∧ IsComponent safe := by
  unfold safeFilename at h
  split at h
  · cases h
  rename_i hdots
  split at h
  · cases h
  split at h
  · cases h
  rename_i hunsafe
  cases h
  refine ⟨rfl, fun hnil => ?_, fun hslash => ?_⟩
  · subst hnil
    exact hdots rfl
  · exact hunsafe (List.any_eq_true.2 ⟨47, hslash, rfl⟩)

theorem IsComponent.withCollisionSuffix {value : Bytes}
    (h : IsComponent value) (k : Nat) :
    IsComponent (withCollisionSuffix value k) := by
  by_cases hk : k = 1
  · subst hk
    exact h
  obtain ⟨front, back, hparted⟩ := exists_parted value
  rw [hparted.numbered k hk]
  have hslash := h.2
  rw [hparted.whole, List.mem_append] at hslash
  refine ⟨fun hnil => ?_, fun hmem => ?_⟩
  · rw [List.append_eq_nil_iff, List.append_eq_nil_iff,
      List.append_eq_nil_iff] at hnil
    exact decimal_ne_nil k hnil.1.2.2
  · rw [List.mem_append, List.mem_append, List.mem_append] at hmem
    rcases hmem with (hmem | hmem | hmem) | hmem
    · exact hslash (.inl hmem)
    · exact absurd hmem (by decide)
    · exact absurd (mem_decimal hmem).1 (by decide)
    · exact hslash (.inr hmem)

/-- The names given to the files of a session. -/
theorem admitFiles_names {quota : UploadQuota} {files : List UploadFileRequest}
    {total total' : UInt64} {names names' : List Bytes}
    (h : admitFiles quota total names files = .ok (total', names'))
    (hnames : ∀ name ∈ names, IsComponent name) (hnodup : names.Nodup) :
    (∀ name ∈ names', IsComponent name) ∧ names'.Nodup := by
  induction files generalizing total names with
  | nil =>
      cases h
      exact ⟨hnames, hnodup⟩
  | cons file rest ih =>
      rw [admitFiles] at h
      split at h
      · cases h
      split at h
      · cases h
      split at h
      · cases h
      split at h
      · cases h
      rename_i safe hsafe
      refine ih h (fun name hname => ?_) ?_
      · rcases List.mem_append.1 hname with hname | hname
        · exact hnames name hname
        · rw [List.mem_singleton.1 hname]
          obtain ⟨k, -, hk⟩ := freeName_candidate names safe names.length 1
          rw [hk]
          exact (safeFilename_ok hsafe).2.withCollisionSuffix k
      · rw [List.nodup_append]
        refine ⟨hnodup, List.nodup_singleton _, ?_⟩
        rintro name hname other hother rfl
        rw [List.mem_singleton.1 hother] at hname
        exact freeName_free names safe 1 hname

-- ==================================================== the scanner's filter

/-- What has no separator ends a path where it ends its last component. -/
theorem suffix_append_cons {p front name : Bytes} (hp : 47 ∉ p) :
    p <:+ front ++ 47 :: name ↔ p <:+ name := by
  constructor
  · intro h
    rcases List.suffix_or_suffix_of_suffix h (List.suffix_append front _) with
      hshort | hlong
    · rcases List.suffix_cons_iff.1 hshort with heq | hsuffix
      · rw [heq] at hp
        exact absurd List.mem_cons_self hp
      · exact hsuffix
    · exact absurd (hlong.subset List.mem_cons_self) hp
  · intro h
    exact h.trans ((List.suffix_cons 47 name).trans (List.suffix_append front _))

/-- The temporary name of an upload: what the scanner looks for. -/
def IsTemporary (name : Bytes) : Prop := text ".pbtmp" <:+ name

instance (name : Bytes) : Decidable (IsTemporary name) :=
  inferInstanceAs (Decidable (_ <:+ _))

/-- Only the last extension matters. -/
theorem isTemporary_iff {front rest : Bytes} (hrest : 46 ∉ rest) :
    IsTemporary (front ++ 46 :: rest) ↔ 46 :: rest = text ".pbtmp" := by
  constructor
  · intro h
    rcases List.suffix_or_suffix_of_suffix h (List.suffix_append front _) with
      hshort | hlong
    · rcases List.suffix_cons_iff.1 hshort with heq | hsuffix
      · exact heq.symm
      · exact absurd (hsuffix.subset (by decide)) hrest
    · have htext : text ".pbtmp" = 46 :: text "pbtmp" := by decide
      rw [htext, List.suffix_cons_iff] at hlong
      rcases hlong with heq | hsuffix
      · exact heq
      · exact absurd (hsuffix.subset List.mem_cons_self) (by decide)
  · intro heq
    rw [heq]
    exact List.suffix_append _ _

theorem not_isTemporary {name : Bytes} (h : 46 ∉ name) : ¬IsTemporary name :=
  fun hsuffix => h (hsuffix.subset (by decide))

/-- Which names a number leaves temporary. -/
theorem isTemporary_withCollisionSuffix {value : Bytes} {k : Nat} (hk : k ≠ 1) :
    IsTemporary (withCollisionSuffix value k)
      ↔ IsTemporary value ∧ value ≠ text ".pbtmp" := by
  obtain ⟨front, back, hparted⟩ := exists_parted value
  rw [hparted.numbered k hk]
  have hnumber : 46 ∉ text "__" ++ decimal k := by
    rw [List.mem_append]
    rintro (hmem | hmem)
    · exact absurd hmem (by decide)
    · exact absurd (mem_decimal hmem).1 (by decide)
  have hwhole := hparted.whole
  rcases hparted.back with ⟨rfl, hdots⟩ | ⟨rest, rfl, hrest, hfront⟩
  · rw [List.append_nil] at hwhole ⊢
    subst hwhole
    rcases hdots with hnone | ⟨rest, rfl, hrest⟩
    · have hnone' : 46 ∉ value ++ (text "__" ++ decimal k) := by
        rw [List.mem_append]
        exact fun h => h.elim hnone hnumber
      exact iff_of_false (not_isTemporary hnone')
        fun h => not_isTemporary hnone h.1
    · refine iff_of_false (fun h => ?_) fun h => ?_
      · have hrest' : 46 ∉ rest ++ (text "__" ++ decimal k) := by
          rw [List.mem_append]
          exact fun h => h.elim hrest hnumber
        have heq := (@isTemporary_iff [] _ hrest').1 h
        have hmem : 95 ∈ text ".pbtmp" := by
          rw [← heq, List.mem_cons, List.mem_append, List.mem_append]
          exact .inr (.inr (.inl (by decide)))
        exact absurd hmem (by decide)
      · exact h.2 ((@isTemporary_iff [] _ hrest).1 h.1)
  · rw [isTemporary_iff hrest, hwhole, isTemporary_iff hrest]
    refine ⟨fun h => ⟨h, fun heq => ?_⟩, And.left⟩
    rw [← h, List.append_left_eq_self] at heq
    exact hfront heq

/-- The scanner leaves out a final file if and only if its name is a
temporary one. -/
theorem staging_finalPath {s x : Bytes} (hs : IsComponent s)
    (hx : IsComponent x) (hhead : s ≠ text ".tmp") :
    isReceiverStagingPath (pathOf [s, x]) = true ↔ IsTemporary x := by
  have hpath : pathOf [s, x] = s ++ 47 :: x := by
    rw [pathOf_cons (List.cons_ne_nil _ _), pathOf_singleton]
  have hmiddle : ¬text "/.tmp/" <:+: s ++ 47 :: x := by
    intro h
    have hcount := h.sublist.count_le 47
    rw [List.count_append, List.count_cons_self, List.count_eq_zero.2 hs.2,
      List.count_eq_zero.2 hx.2] at hcount
    exact absurd hcount (by decide)
  have hstart : ¬text ".tmp/" <+: s ++ 47 :: x := by
    rintro ⟨rest, hrest⟩
    have hsplit : text ".tmp" ++ 47 :: rest = s ++ 47 :: x := hrest
    rcases List.append_eq_append_iff.1 hsplit with
      ⟨middle, hs', hmiddle⟩ | ⟨middle, hs', hmiddle⟩
    · cases middle with
      | nil => exact hhead (hs'.trans (List.append_nil _))
      | cons byte middle =>
          obtain ⟨rfl, -⟩ := List.cons.inj hmiddle
          rw [hs'] at hs
          exact hs.2 (List.mem_append_right _ List.mem_cons_self)
    · cases middle with
      | nil => exact hhead (hs'.trans (List.append_nil _)).symm
      | cons byte middle =>
          obtain ⟨rfl, -⟩ := List.cons.inj hmiddle
          have hmem : 47 ∈ text ".tmp" := by
            rw [hs']
            exact List.mem_append_right _ List.mem_cons_self
          exact absurd hmem (by decide)
  unfold isReceiverStagingPath
  rw [hpath, Bool.or_eq_true, Bool.or_eq_true, decide_eq_true_eq,
    List.isSuffixOf_iff_suffix, List.isPrefixOf_iff_prefix,
    suffix_append_cons (by decide)]
  exact ⟨fun h => (h.resolve_right hstart).resolve_right hmiddle,
    fun h => .inl (.inl h)⟩

/-- It leaves out all there is under `.tmp`. -/
theorem staging_tmp {components : List Bytes} (hne : components ≠ []) :
    isReceiverStagingPath (pathOf (text ".tmp" :: components)) = true := by
  unfold isReceiverStagingPath
  rw [pathOf_cons hne, Bool.or_eq_true, List.isPrefixOf_iff_prefix]
  exact .inr ⟨pathOf components, rfl⟩

-- ============================================================== the rows

/-- Where the file of the row ends up: below a session's directory. -/
structure UploadFileRow.Named (row : UploadFileRow) : Prop where
  session : ∃ random, row.sessionId = newId "session" random
  name : IsComponent row.safeFilename

private theorem newId_component (random : Nonce) :
    IsComponent (newId "session" random)
      ∧ newId "session" random ≠ text ".tmp" := by
  have hhead : (newId "session" random).head? = some 115 := rfl
  refine ⟨⟨fun hnil => ?_, fun hslash => ?_⟩, fun htmp => ?_⟩
  · rw [hnil] at hhead
    cases hhead
  · unfold newId at hslash
    rw [List.mem_append, List.mem_append] at hslash
    rcases hslash with (hslash | hslash) | hslash
    · exact absurd hslash (by decide)
    · exact absurd hslash (by decide)
    · have hdigit : ∀ d : Fin 16, hexDigit (UInt8.ofNat d) ≠ 47 := by decide
      obtain ⟨digit, hdigit', heq⟩ := List.mem_map.1 hslash
      obtain ⟨value, -, hvalue⟩ := List.mem_flatMap.1 hdigit'
      rw [List.mem_singleton.1 hvalue] at heq
      exact hdigit value heq
  · rw [htmp] at hhead
    exact absurd hhead (by decide)

/-- Whether a scan leaves the row's file out. -/
theorem UploadFileRow.Named.staging {row : UploadFileRow} (h : row.Named) :
    isReceiverStagingPath (pathOf [row.sessionId, row.safeFilename]) = true
      ↔ IsTemporary row.safeFilename := by
  obtain ⟨⟨random, hsession⟩, hname⟩ := h
  obtain ⟨hcomponent, htmp⟩ := newId_component random
  rw [hsession]
  exact staging_finalPath hcomponent hname htmp

namespace UploadDb

def Named (db : UploadDb) : Prop := ∀ row ∈ db.files, row.Named

variable {db db' : UploadDb}

theorem Named.updateFiles (h : db.Named) (selects : UploadFileRow → Bool)
    {change : UploadFileRow → UploadFileRow}
    (hchange : ∀ row, (change row).place = row.place) :
    (db.updateFiles selects change).2.Named := by
  intro row hrow
  obtain ⟨row₀, hrow₀, rfl⟩ := List.mem_map.1 hrow
  obtain ⟨hsession, hname⟩ := h row₀ hrow₀
  split
  · obtain ⟨hs, hx⟩ := Prod.mk.inj (hchange row₀)
    exact ⟨by rw [hs]; exact hsession, by rw [hx]; exact hname⟩
  · exact ⟨hsession, hname⟩

/-- No operation names a file otherwise. -/
theorem Operation.effect_named {op : Operation} {v : op.Answer}
    (h : op.effect db = some (v, db')) (hdb : db.Named) : db'.Named := by
  cases op with
  | createSession quota drawn files =>
      obtain ⟨⟨total, names, reserved, hadmit, -, -, -, happended⟩, -, -⟩ :=
        createSession_created h
      intro row hrow
      rw [happended.files] at hrow
      rcases List.mem_append.1 hrow with hrow | hrow
      · exact hdb row hrow
      · obtain ⟨file, -, i, safe, hsafe, rfl⟩ := mem_requestRows hrow
        exact ⟨⟨drawn.session, rfl⟩,
          (admitFiles_names hadmit nofun .nil).1 safe hsafe⟩
  | beginUpload s f =>
      have hbegin : UploadDb.beginUpload s f db = some (v, db') := h
      unfold UploadDb.beginUpload at hbegin
      split at hbegin
      · cases hbegin
      split at hbegin
      · cases hbegin
        exact hdb
      · cases hbegin
        exact hdb
      · split at hbegin
        · cases hbegin
          exact hdb.updateFiles _ fun _ => rfl
        · cases hbegin
  | markUploadFailed s f =>
      obtain rfl := congrArg Prod.snd (Option.some.inj h)
      exact hdb.updateFiles _ fun _ => rfl
  | commitUpload s f size digest =>
      have hcommit : UploadDb.commitUpload s f size digest db = some (v, db') := h
      simp only [UploadDb.commitUpload] at hcommit
      split at hcommit
      · split at hcommit
        · cases hcommit
        · rename_i updated hupdated
          cases hcommit
          unfold updateProgress at hupdated
          split at hupdated
          · cases hupdated
          · cases hupdated
            exact hdb.updateFiles _ fun _ => rfl
      · cases hcommit
  | completeSession s =>
      have hcomplete : UploadDb.completeSession s db = some (v, db') := h
      unfold UploadDb.completeSession at hcomplete
      split at hcomplete
      · cases hcomplete
      · cases hcomplete
        exact hdb

end UploadDb

-- ============================================================= every run

/-- A call changes the tables by an operation, or not at all. -/
theorem hostActs_committed {φ : Type} {quiet : Bool}
    {outside : Effects storeCalls φ} {system : Effects systemCalls φ}
    {c : serverCalls.Call} {host host' : Host φ} {r : serverCalls.Answer c}
    (h : hostActs quiet outside system c host r host')
    (hclosed : host.link.txn = none) :
    host'.link.committed = host.link.committed
      ∨ ∃ (op : Operation) (v : op.Answer),
        op.effect host.link.committed = some (v, host'.link.committed) := by
  cases c with
  | inl op =>
      cases op with
      | change op =>
          obtain ⟨-, herror, hok⟩ := StoreOp.Acts.change h hclosed
          cases r with
          | error e => exact .inl (herror e rfl)
          | ok v => exact .inr ⟨op, v, hok v rfl⟩
      | getFile s f =>
          left
          rw [StoreOp.Acts.reads h (getFile_uses s f) hclosed]
      | interrupted =>
          left
          rw [StoreOp.Acts.reads h interruptedUploads_uses hclosed]
  | inr c =>
      left
      rw [h.2]

section System

variable {τ : Type} [DecidableEq τ] {durable : Bool} {blake3 : Bytes → Digest}
  {quota : UploadQuota} {faulty : Bool} {requests : τ → PutRequest}
  {sys sys' sys₀ : System τ}

omit [DecidableEq τ] in
theorem World.hostActs_named {w w' : World τ} {c : serverCalls.Call}
    {r : serverCalls.Answer c}
    (h : hostActs (!faulty) (storeOnDisk faulty) (systemOnDisk faulty) c w.host r
      w'.host) (hclosed : w.link.txn = none) (hdb : w.db.Named) :
    w'.db.Named := by
  rcases hostActs_committed h hclosed with heq | ⟨op, v, heffect⟩
  · have hsame : w'.db = w.db := heq
    rw [hsame]
    exact hdb
  · exact UploadDb.Operation.effect_named heffect hdb

theorem System.Step.named (hstep : System.Step blake3 quota faulty requests sys sys')
    (h : sys.Sound durable blake3 quota faulty) (hdb : sys.world.db.Named) :
    sys'.world.db.Named := by
  have hclosed := h.world.closed
  cases hstep with
  | starts => exact hdb
  | opens hc => exact World.hostActs_named hc.1 hclosed hdb
  | serves => exact hdb
  | refuses => exact hdb
  | arrives hfree => exact hdb
  | moves hmove =>
      cases hmove with
      | step hnext hc => exact World.hostActs_named hc.1 hclosed hdb
  | aside hop hc => exact World.hostActs_named hc.1 hclosed hdb
  | killed => exact hdb

/-- In every state of the receiver, a file's session and name are single
components, the session's none the scanner looks for. -/
theorem System.named (hquota : quota.maxReservedBytes.toNat < 2 ^ 63)
    (hfresh : sys₀.Fresh)
    (hrun : Relation.ReflTransGen
      (System.Step blake3 quota faulty requests) sys₀ sys) :
    sys.world.db.Named := by
  have hbegin : sys₀.Sound false blake3 quota faulty := hfresh.sound
  induction hrun with
  | refl =>
      have hempty : sys₀.world.db = .empty := congrArg Link.committed hfresh.tables
      rw [hempty]
      exact fun _ hrow => absurd hrow List.not_mem_nil
  | tail hrun hstep ih =>
      have hsound := (hbegin.run hquota (System.stepsFrom_of_step hrun)).1
      exact hstep.named hsound ih

end System

end PhotoBridge.Upload
