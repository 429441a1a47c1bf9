/-
What holds of the receiver's tables between any two operations: totals
that are the sums of the files', states that agree with sizes and
digests, and the quotas the sessions were admitted under.

Every operation either adds a session with its files
(`UploadDb.Sound.created`) or rewrites rows in place
(`UploadDb.Sound.rewritten`); a file that is received is never rewritten.
-/
import PhotoBridge.Upload.Effects
import Mathlib.Data.List.Nodup
import Mathlib.Algebra.BigOperators.Ring.Finset
import Mathlib.Algebra.Order.BigOperators.Group.List
import Mathlib.Algebra.Order.Ring.Int
import Mathlib.Algebra.Order.Ring.Nat

namespace PhotoBridge.Upload

-- ========================================================= signed sizes

/-- A size below 2^63 is stored as it is. -/
theorem toInt_toInt64 {u : UInt64} (h : u.toNat < 2 ^ 63) :
    u.toInt64.toInt = u.toNat := by
  have hbits : u.toInt64.toInt = u.toBitVec.toInt := rfl
  have hnat : u.toBitVec.toNat = u.toNat := rfl
  rw [hbits, BitVec.toInt_eq_toNat_of_lt]
  · rfl
  · omega

/-- A stored size that is not negative is read back as it is. -/
theorem toNat_toUInt64 {i : Int64} (h : 0 ≤ i.toInt) :
    (i.toUInt64.toNat : Int) = i.toInt := by
  have hint : i.toInt = i.toBitVec.toInt := rfl
  have hnat : i.toUInt64.toNat = i.toBitVec.toNat := rfl
  have hlt : i.toBitVec.toNat < 2 ^ 64 := i.toBitVec.isLt
  rw [hint, BitVec.toInt_eq_toNat_cond] at h
  rw [hint, hnat, BitVec.toInt_eq_toNat_cond]
  by_cases hsmall : 2 * i.toBitVec.toNat < 2 ^ 64
  · rw [if_pos hsmall]
  · rw [if_neg hsmall] at h
    omega

/-- SQLite's sum is the sum, unless it overflows. -/
theorem addInt64_eq {a b c : Int64} (h : UploadDb.addInt64 a b = some c) :
    c.toInt = a.toInt + b.toInt := by
  simp only [UploadDb.addInt64] at h
  by_cases hrange : -(2 ^ 63) ≤ a.toInt + b.toInt ∧ a.toInt + b.toInt < 2 ^ 63
  · rw [if_pos hrange] at h
    cases h
    rw [Int64.toInt_add, Int.bmod_eq_of_le]
    · omega
    · omega
  · rw [if_neg hrange] at h
    cases h

/-- The same of many. -/
theorem foldlM_addInt64 {values : List Int64} {a c : Int64}
    (h : values.foldlM UploadDb.addInt64 a = some c) :
    c.toInt = a.toInt + (values.map (·.toInt)).sum := by
  induction values generalizing a with
  | nil =>
      cases h
      simp
  | cons v rest ih =>
      rw [List.foldlM_cons, Option.bind_eq_bind, Option.bind_eq_some_iff] at h
      obtain ⟨b, hb, hrest⟩ := h
      have hsum := addInt64_eq hb
      have htail := ih hrest
      rw [List.map_cons, List.sum_cons]
      omega

/-- `SUM`, where it does not overflow. -/
private theorem sumInt64_eq {values : List Int64} {c : Int64}
    (h : UploadDb.sumInt64 values = some c) :
    c.toInt = (values.map (·.toInt)).sum := by
  have hsum := foldlM_addInt64 h
  simpa using hsum

/-- It does not overflow below 2^63. -/
theorem foldlM_addInt64_some {values : List Int64} {a : Int64}
    (hnonneg : ∀ v ∈ values, 0 ≤ v.toInt) (ha : 0 ≤ a.toInt)
    (hlt : a.toInt + (values.map (·.toInt)).sum < 2 ^ 63) :
    ∃ c, values.foldlM UploadDb.addInt64 a = some c := by
  induction values generalizing a with
  | nil => exact ⟨a, rfl⟩
  | cons v rest ih =>
      have hv := hnonneg v List.mem_cons_self
      have hrest : ∀ v ∈ rest, 0 ≤ v.toInt :=
        fun v hmem => hnonneg v (List.mem_cons_of_mem _ hmem)
      have hsum : 0 ≤ (rest.map (·.toInt)).sum := by
        refine List.sum_nonneg fun x hx => ?_
        obtain ⟨v, hmem, rfl⟩ := List.mem_map.1 hx
        exact hrest v hmem
      rw [List.map_cons, List.sum_cons] at hlt
      have hadd : UploadDb.addInt64 a v = some (a + v) := by
        simp only [UploadDb.addInt64]
        rw [if_pos]
        constructor <;> omega
      have htoInt := addInt64_eq hadd
      obtain ⟨c, hc⟩ := ih (a := a + v) hrest (by omega) (by omega)
      refine ⟨c, ?_⟩
      rw [List.foldlM_cons, hadd]
      exact hc

/-- `SUM` of sizes that add up to one. -/
theorem sumInt64_some {values : List Int64}
    (hnonneg : ∀ v ∈ values, 0 ≤ v.toInt)
    (hlt : (values.map (·.toInt)).sum < 2 ^ 63) :
    ∃ c, UploadDb.sumInt64 values = some c := by
  refine foldlM_addInt64_some hnonneg (Int.le_refl 0) ?_
  rw [show (0 : Int64).toInt = 0 from rfl, Int.zero_add]
  exact hlt

-- ======================================================== the invariant

/-- A file's sizes, digest and state agree, within the quota. -/
structure UploadFileRow.Sound (quota : UploadQuota) (row : UploadFileRow) :
    Prop where
  nonneg : 0 ≤ row.expectedSize.toInt
  expected_le : row.expectedSize.toInt ≤ quota.maxFileBytes.toNat
  digest : row.state = .received ↔ row.serverDigest.isSome = true
  received : row.state = .received → row.receivedSize = row.expectedSize
  other : row.state ≠ .received → row.receivedSize = 0

/-- A session's totals and state agree with its files, within the quota. -/
structure UploadSessionRow.Sound (quota : UploadQuota)
    (files : List UploadFileRow) (session : UploadSessionRow) : Prop where
  expected : session.expectedTotalBytes.toInt
    = (files.map (·.expectedSize.toInt)).sum
  expected_le : session.expectedTotalBytes.toInt ≤ quota.maxSessionBytes.toNat
  received : session.receivedTotalBytes.toInt
    = (files.map (·.receivedSize.toInt)).sum
  complete : session.state = .complete → ∀ row ∈ files, row.state = .received

def UploadFileRow.key (row : UploadFileRow) : Bytes × Bytes :=
  (row.sessionId, row.fileId)

/-- Where the file is to stand. -/
def UploadFileRow.place (row : UploadFileRow) : Bytes × Bytes :=
  (row.sessionId, row.safeFilename)

/-- The bytes promised to the sessions that have not failed. -/
def UploadDb.reserved (db : UploadDb) : Int :=
  ((db.sessions.filter (·.state != .failed)).map
    (·.expectedTotalBytes.toInt)).sum

structure UploadDb.Sound (quota : UploadQuota) (db : UploadDb) : Prop where
  sessionIds : (db.sessions.map (·.sessionId)).Nodup
  keys : (db.files.map UploadFileRow.key).Nodup
  places : (db.files.map UploadFileRow.place).Nodup
  home : ∀ row ∈ db.files, row.sessionId ∈ db.sessions.map (·.sessionId)
  files : ∀ row ∈ db.files, row.Sound quota
  sessions : ∀ session ∈ db.sessions,
    session.Sound quota (db.filesOf session.sessionId)
  reserved : db.reserved ≤ quota.maxReservedBytes.toNat

namespace UploadDb

variable {quota : UploadQuota} {db db' : UploadDb}

/-- Empty tables are in order. -/
theorem empty_sound : empty.Sound quota where
  sessionIds := List.nodup_nil
  keys := List.nodup_nil
  places := List.nodup_nil
  home := fun _ hrow => absurd hrow List.not_mem_nil
  files := fun _ hrow => absurd hrow List.not_mem_nil
  sessions := fun _ hsession => absurd hsession List.not_mem_nil
  reserved := Int.natCast_nonneg _

/-- What an operation leaves: tables that are sound, with every received
file's row as it was. -/
structure Follows (quota : UploadQuota) (db db' : UploadDb) : Prop where
  sound : db'.Sound quota
  received : ∀ row ∈ db.files, row.state = .received → row ∈ db'.files

/-- Nothing has happened. -/
theorem Sound.follows (hdb : db.Sound quota) : Follows quota db db :=
  ⟨hdb, fun _ hrow _ => hrow⟩

-- ===================================================== rows rewritten

/-- A rewriting of the file rows that keeps what was registered and does
not touch a file that is received. -/
structure Rewrites (quota : UploadQuota) (db : UploadDb)
    (g : UploadFileRow → UploadFileRow) : Prop where
  key : ∀ row ∈ db.files, (g row).key = row.key
  place : ∀ row ∈ db.files, (g row).place = row.place
  expected : ∀ row ∈ db.files, (g row).expectedSize = row.expectedSize
  sound : ∀ row ∈ db.files, (g row).Sound quota
  received : ∀ row ∈ db.files, row.state = .received → g row = row

/-- A rewriting of the session rows that keeps what was admitted. -/
structure RewritesSessions (db : UploadDb)
    (h : UploadSessionRow → UploadSessionRow) : Prop where
  sessionId : ∀ session, (h session).sessionId = session.sessionId
  expected : ∀ session,
    (h session).expectedTotalBytes = session.expectedTotalBytes
  failed : ∀ session, (h session).state = .failed ↔ session.state = .failed
  complete : ∀ session ∈ db.sessions, (h session).state = .complete →
    session.state = .complete
      ∨ ∀ row ∈ db.filesOf session.sessionId, row.state = .received

/-- The files of a session. -/
theorem mem_filesOf {sessionId : Bytes} {row : UploadFileRow} :
    row ∈ db.filesOf sessionId ↔ row ∈ db.files ∧ row.sessionId = sessionId := by
  unfold filesOf
  rw [List.mem_filter, beq_iff_eq]

/-- A rewritten row stays in its session. -/
theorem Rewrites.filesOf {g : UploadFileRow → UploadFileRow}
    (hg : Rewrites quota db g) (sessions : List UploadSessionRow)
    (sessionId : Bytes) :
    filesOf ⟨sessions, db.files.map g⟩ sessionId
      = (db.filesOf sessionId).map g := by
  unfold UploadDb.filesOf
  rw [List.filter_map]
  congr 1
  apply List.filter_congr
  intro row hrow
  have hkey := congrArg Prod.fst (hg.key row hrow)
  simp only [Function.comp_apply]
  rw [show (g row).sessionId = row.sessionId from hkey]

/-- Sessions rewritten take up no other space. -/
theorem RewritesSessions.reserved {h : UploadSessionRow → UploadSessionRow}
    (hh : RewritesSessions db h) (files : List UploadFileRow) :
    UploadDb.reserved ⟨db.sessions.map h, files⟩ = db.reserved := by
  unfold UploadDb.reserved
  have hfilter : (db.sessions.map h).filter (·.state != .failed)
      = (db.sessions.filter (·.state != .failed)).map h := by
    rw [List.filter_map]
    congr 1
    apply List.filter_congr
    intro session _
    have hiff := hh.failed session
    by_cases hs : session.state = .failed
    · simp [hs, hiff.2 hs]
    · have hs' : (h session).state ≠ .failed := fun hf => hs (hiff.1 hf)
      simp [bne_iff_ne.2 hs, bne_iff_ne.2 hs']
  show (((db.sessions.map h).filter _).map _).sum = _
  rw [hfilter, List.map_map]
  congr 1
  apply List.map_congr_left
  intro session _
  simp only [Function.comp_apply, hh.expected]

/-- Rewriting rows in place keeps the invariant, if the sessions' progress
follows the files'. -/
theorem Sound.rewritten (hdb : db.Sound quota)
    {g : UploadFileRow → UploadFileRow}
    {h : UploadSessionRow → UploadSessionRow}
    (hg : Rewrites quota db g) (hh : RewritesSessions db h)
    (hreceived : ∀ session ∈ db.sessions,
      (h session).receivedTotalBytes.toInt
        = ((db.filesOf session.sessionId).map
          fun row => (g row).receivedSize.toInt).sum) :
    Sound quota ⟨db.sessions.map h, db.files.map g⟩ where
  sessionIds := by
    have hids : (db.sessions.map h).map (·.sessionId)
        = db.sessions.map (·.sessionId) := by
      rw [List.map_map]
      exact List.map_congr_left fun session _ => hh.sessionId session
    rw [hids]
    exact hdb.sessionIds
  keys := by
    have hkeys : (db.files.map g).map UploadFileRow.key
        = db.files.map UploadFileRow.key := by
      rw [List.map_map]
      exact List.map_congr_left hg.key
    rw [hkeys]
    exact hdb.keys
  places := by
    have hplaces : (db.files.map g).map UploadFileRow.place
        = db.files.map UploadFileRow.place := by
      rw [List.map_map]
      exact List.map_congr_left hg.place
    rw [hplaces]
    exact hdb.places
  home := by
    intro row' hrow'
    obtain ⟨row, hrow, rfl⟩ := List.mem_map.1 hrow'
    have hid : (g row).sessionId = row.sessionId :=
      congrArg Prod.fst (hg.key row hrow)
    obtain ⟨session, hsession, hs⟩ := List.mem_map.1 (hdb.home row hrow)
    rw [hid, ← hs, ← hh.sessionId session]
    exact List.mem_map_of_mem (List.mem_map_of_mem hsession)
  files := by
    intro row' hrow'
    obtain ⟨row, hrow, rfl⟩ := List.mem_map.1 hrow'
    exact hg.sound row hrow
  sessions := by
    intro session' hsession'
    obtain ⟨session, hsession, rfl⟩ := List.mem_map.1 hsession'
    have hsound := hdb.sessions session hsession
    rw [hh.sessionId, hg.filesOf]
    refine ⟨?_, ?_, ?_, fun hcomplete => ?_⟩
    -- the sums go over the same rows
    · rw [hh.expected, hsound.expected, List.map_map]
      congr 1
      apply List.map_congr_left
      intro row hrow
      simp only [Function.comp_apply, hg.expected row (mem_filesOf.1 hrow).1]
    · rw [hh.expected]
      exact hsound.expected_le
    · rw [hreceived session hsession, List.map_map]
      rfl
    -- a complete session stays complete: its rows were all received
    · have hall : ∀ row ∈ db.filesOf session.sessionId,
          row.state = .received := by
        rcases hh.complete session hsession hcomplete with hold | hall
        · exact hsound.complete hold
        · exact hall
      intro row' hrow'
      obtain ⟨row, hrow, rfl⟩ := List.mem_map.1 hrow'
      rw [hg.received row (mem_filesOf.1 hrow).1 (hall row hrow)]
      exact hall row hrow
  reserved := by
    rw [hh.reserved]
    exact hdb.reserved

/-- Sessions left as they are. -/
theorem RewritesSessions.refl : RewritesSessions db id where
  sessionId := fun _ => rfl
  expected := fun _ => rfl
  failed := fun _ => Iff.rfl
  complete := fun _ _ h => .inl h

/-- Files left as they are. -/
theorem Rewrites.refl (hdb : db.Sound quota) : Rewrites quota db id where
  key := fun _ _ => rfl
  place := fun _ _ => rfl
  expected := fun _ _ => rfl
  sound := hdb.files
  received := fun _ _ _ => rfl

/-- Rewriting only the rows selected, none of which is received. -/
theorem Rewrites.select (hdb : db.Sound quota)
    {selects : UploadFileRow → Bool} {change : UploadFileRow → UploadFileRow}
    (hkey : ∀ row, (change row).key = row.key)
    (hplace : ∀ row, (change row).place = row.place)
    (hexpected : ∀ row, (change row).expectedSize = row.expectedSize)
    (hopen : ∀ row, selects row = true → row.state ≠ .received)
    (hsound : ∀ row ∈ db.files, selects row = true →
      (change row).Sound quota) :
    Rewrites quota db fun row => if selects row then change row else row where
  key := by
    intro row _
    split
    · exact hkey row
    · rfl
  place := by
    intro row _
    split
    · exact hplace row
    · rfl
  expected := by
    intro row _
    split
    · exact hexpected row
    · rfl
  sound := by
    intro row hrow
    split
    · exact hsound row hrow ‹_›
    · exact hdb.files row hrow
  received := by
    intro row _ hstate
    split
    · exact absurd hstate (hopen row ‹_›)
    · rfl

/-- A received file outlives a rewrite. -/
theorem Rewrites.mem {g : UploadFileRow → UploadFileRow}
    (hg : Rewrites quota db g) :
    ∀ row ∈ db.files, row.state = .received → row ∈ db.files.map g :=
  fun row hrow hstate =>
    List.mem_map.2 ⟨row, hrow, hg.received row hrow hstate⟩

/-- A file that is not received given another state. -/
theorem Sound.restated (hdb : db.Sound quota) {selects : UploadFileRow → Bool}
    {state : UploadFileState} (hstate : state ≠ .received)
    (hopen : ∀ row, selects row = true → row.state ≠ .received) :
    Follows quota db
      (db.updateFiles selects fun row => { row with state := state }).2 := by
  have hg : Rewrites quota db fun row =>
      if selects row then { row with state := state } else row := by
    refine .select hdb (fun _ => rfl) (fun _ => rfl) (fun _ => rfl) hopen ?_
    intro row hrow hselected
    have hrow' := hdb.files row hrow
    have hdigest : row.serverDigest.isSome ≠ true :=
      fun hd => hopen row hselected (hrow'.digest.2 hd)
    exact ⟨hrow'.nonneg, hrow'.expected_le,
      ⟨fun h => absurd h hstate, fun h => absurd h hdigest⟩,
      fun h => absurd h hstate, fun _ => hrow'.other (hopen row hselected)⟩
  refine ⟨?_, hg.mem⟩
  have hsessions := hdb.rewritten hg .refl fun session hsession => by
    show session.receivedTotalBytes.toInt = _
    rw [(hdb.sessions session hsession).received]
    congr 1
    apply List.map_congr_left
    intro row _
    split <;> rfl
  rw [List.map_id] at hsessions
  exact hsessions

-- ======================================================= the operations

/-- Beginning an upload keeps the tables in order. -/
theorem Sound.begin_ (hdb : db.Sound quota) (s f : Bytes) :
    Follows quota db (db.begin_ s f).2 := by
  refine hdb.restated (by decide) fun row hrow => ?_
  rw [Bool.and_eq_true, Bool.or_eq_true, beq_iff_eq, beq_iff_eq] at hrow
  rcases hrow.2 with hstate | hstate <;> rw [hstate] <;> decide

/-- Marking an upload failed keeps them in order. -/
theorem Sound.markFailed (hdb : db.Sound quota) (s f : Bytes) :
    Follows quota db (db.markFailed s f).2 := by
  refine hdb.restated (by decide) fun row hrow => ?_
  rw [Bool.and_eq_true, beq_iff_eq] at hrow
  rw [hrow.2]
  decide

/-- The row a `CommitUpload` is for. -/
theorem receive_selects {s f : Bytes} {size : Int64} {row : UploadFileRow}
    (h : (row.isAt s f && row.state == .receiving && row.expectedSize == size)
      = true) :
    row.sessionId = s ∧ row.state = .receiving ∧ row.expectedSize = size := by
  rw [Bool.and_eq_true, Bool.and_eq_true, UploadFileRow.isAt,
    Bool.and_eq_true] at h
  exact ⟨beq_iff_eq.1 h.1.1.1, beq_iff_eq.1 h.1.2, beq_iff_eq.1 h.2⟩

/-- A file that has its size may be received. -/
theorem Rewrites.receive (hdb : db.Sound quota) (s f : Bytes) (size : Int64)
    (digest : Digest) :
    Rewrites quota db fun row =>
      if row.isAt s f && row.state == .receiving && row.expectedSize == size then
        { row with
          receivedSize := size, serverDigest := some digest, state := .received }
      else row := by
  refine .select hdb (fun _ => rfl) (fun _ => rfl) (fun _ => rfl) ?_ ?_
  · intro row hrow
    rw [(receive_selects hrow).2.1]
    decide
  · intro row hmem hrow
    have hsound := hdb.files row hmem
    exact ⟨hsound.nonneg, hsound.expected_le, ⟨fun _ => rfl, fun _ => rfl⟩,
      fun _ => (receive_selects hrow).2.2.symm, fun h => absurd rfl h⟩

/-- Committing an upload keeps the tables in order. -/
theorem Sound.commitUpload (hdb : db.Sound quota) {s f : Bytes}
    {size : UInt64} {digest : Digest}
    (h : UploadDb.commitUpload s f size digest db = some ((), db')) :
    Follows quota db db' := by
  simp only [UploadDb.commitUpload] at h
  split at h
  · cases hp : (db.receive s f size.toInt64 digest).2.updateProgress s with
    | error e =>
        rw [hp] at h
        cases h
    | ok updated =>
    rw [hp] at h
    cases h
    have hg := Rewrites.receive hdb s f size.toInt64 digest
    unfold updateProgress at hp
    split at hp
    · cases hp
    rename_i total htotal
    cases hp
    have hh : RewritesSessions db fun row => if row.sessionId == s then
        { row with receivedTotalBytes := total } else row := by
      refine ⟨fun row => ?_, fun row => ?_, fun row => ?_, fun row _ => ?_⟩
      · split <;> rfl
      · split <;> rfl
      · split <;> exact Iff.rfl
      · split <;> exact .inl
    refine ⟨hdb.rewritten hg hh fun session hsession => ?_, hg.mem⟩
    by_cases hs : session.sessionId = s
    · have hsum := sumInt64_eq htotal
      rw [if_pos (beq_iff_eq.2 hs), hs]
      show total.toInt = _
      rw [hsum, show filesOf (db.receive s f size.toInt64 digest).2 s = _ from
        hg.filesOf db.sessions s, List.map_map, List.map_map]
      rfl
    · rw [if_neg (fun h => hs (beq_iff_eq.1 h)),
        (hdb.sessions session hsession).received]
      congr 1
      apply List.map_congr_left
      intro row hrow
      rw [if_neg]
      intro hselected
      exact hs ((mem_filesOf.1 hrow).2.symm.trans (receive_selects hselected).1)
  · cases h

/-- Completing a session keeps them in order. -/
theorem Sound.complete (hdb : db.Sound quota) {s : Bytes}
    (hall : (db.completion s).2 = 0) : (db.complete s).2.Sound quota := by
  have hreceived : ∀ row ∈ db.filesOf s, row.state = .received := by
    intro row hrow
    have hcount := List.countP_eq_zero.1 hall row hrow
    by_cases hstate : row.state = .received
    · exact hstate
    · exact absurd (bne_iff_ne.2 hstate) hcount
  have hh : RewritesSessions db fun row =>
      if row.sessionId == s && row.state == .opened then
        { row with state := .complete } else row := by
    refine ⟨fun row => ?_, fun row => ?_, fun row => ?_, fun row _ => ?_⟩
    · split <;> rfl
    · split <;> rfl
    · split
      · rename_i hselected
        rw [Bool.and_eq_true, beq_iff_eq, beq_iff_eq] at hselected
        simp [hselected.2]
      · exact Iff.rfl
    · split
      · rename_i hselected
        rw [Bool.and_eq_true, beq_iff_eq] at hselected
        rw [hselected.1]
        exact fun _ => .inr hreceived
      · exact .inl
  have hrewritten := hdb.rewritten (.refl hdb) hh fun session hsession => by
    split
    · exact (hdb.sessions session hsession).received
    · exact (hdb.sessions session hsession).received
  rw [List.map_id] at hrewritten
  exact hrewritten

-- ========================================================= a new session

/-- The rows of an `INSERT` loop that went through. -/
structure Appended (db : UploadDb) (rows : List UploadFileRow)
    (db' : UploadDb) : Prop where
  sessions : db'.sessions = db.sessions
  files : db'.files = db.files ++ rows
  keys : (db.files.map UploadFileRow.key).Nodup →
    (db'.files.map UploadFileRow.key).Nodup
  places : (db.files.map UploadFileRow.place).Nodup →
    (db'.files.map UploadFileRow.place).Nodup

/-- A row that is added comes last. -/
theorem insertFile_appended {row : UploadFileRow}
    (h : db.insertFile row = .ok db') : Appended db [row] db' := by
  unfold insertFile at h
  split at h
  · cases h
  rename_i hkey
  split at h
  · cases h
  rename_i hplace
  cases h
  refine ⟨rfl, rfl, fun hnodup => ?_, fun hnodup => ?_⟩
  · rw [List.map_append, List.map_singleton, List.nodup_append]
    refine ⟨hnodup, List.nodup_singleton _, ?_⟩
    intro k hk k' hk' heq
    rw [List.mem_singleton.1 hk'] at heq
    obtain ⟨other, hmem, rfl⟩ := List.mem_map.1 hk
    obtain ⟨hs, hf⟩ := Prod.mk.inj heq
    refine hkey ?_
    rw [file?, List.find?_isSome]
    refine ⟨other, hmem, ?_⟩
    rw [UploadFileRow.isAt, Bool.and_eq_true]
    exact ⟨beq_iff_eq.2 hs, beq_iff_eq.2 hf⟩
  · rw [List.map_append, List.map_singleton, List.nodup_append]
    refine ⟨hnodup, List.nodup_singleton _, ?_⟩
    intro k hk k' hk' heq
    rw [List.mem_singleton.1 hk'] at heq
    obtain ⟨other, hmem, rfl⟩ := List.mem_map.1 hk
    obtain ⟨hs, hf⟩ := Prod.mk.inj heq
    refine hplace (List.any_eq_true.2 ⟨other, hmem, ?_⟩)
    rw [Bool.and_eq_true]
    exact ⟨beq_iff_eq.2 hs, beq_iff_eq.2 hf⟩

/-- The same of many. -/
theorem insertAll_appended {rows : List UploadFileRow}
    (h : db.insertAll rows = some db') : Appended db rows db' := by
  induction rows generalizing db with
  | nil =>
      cases h
      exact ⟨rfl, (List.append_nil _).symm, id, id⟩
  | cons row rest ih =>
      rw [insertAll] at h
      cases hrow : db.insertFile row with
      | error e =>
          rw [hrow] at h
          cases h
      | ok db₁ =>
      rw [hrow] at h
      have hfirst := insertFile_appended hrow
      have hrest := ih h
      refine ⟨hrest.sessions.trans hfirst.sessions, ?_,
        hrest.keys ∘ hfirst.keys, hrest.places ∘ hfirst.places⟩
      rw [hrest.files, hfirst.files, List.append_assoc]
      rfl

/-- What `CreateSession` has computed when it starts inserting. -/
structure Admitted (quota : UploadQuota) (total total' : UInt64)
    (names names' : List Bytes) (files : List UploadFileRequest) : Prop where
  sum : total'.toNat = total.toNat + (files.map (·.expectedSize.toNat)).sum
  file : ∀ file ∈ files, file.expectedSize.toNat ≤ quota.maxFileBytes.toNat
  bound : files ≠ [] → total'.toNat ≤ quota.maxSessionBytes.toNat
  names : ∃ new, names' = names ++ new ∧ new.length = files.length

/-- Files that are admitted have room, and names of their own. -/
theorem admitFiles_admitted {files : List UploadFileRequest}
    {total total' : UInt64} {names names' : List Bytes}
    (h : admitFiles quota total names files = .ok (total', names')) :
    Admitted quota total total' names names' files := by
  induction files generalizing total names with
  | nil =>
      cases h
      exact ⟨by simp, fun _ hf => absurd hf List.not_mem_nil,
        fun h => absurd rfl h, [], by simp⟩
  | cons file rest ih =>
      rw [admitFiles] at h
      by_cases hfile : file.expectedSize > quota.maxFileBytes
      · rw [if_pos hfile] at h
        cases h
      rw [if_neg hfile] at h
      by_cases hover : addWouldOverflow total file.expectedSize = true
      · rw [if_pos hover] at h
        cases h
      rw [if_neg hover] at h
      by_cases hsession : total + file.expectedSize > quota.maxSessionBytes
      · rw [if_pos hsession] at h
        cases h
      rw [if_neg hsession] at h
      cases hsafe : safeFilename file.originalFilename with
      | error e =>
          rw [hsafe] at h
          cases h
      | ok safe =>
      rw [hsafe] at h
      have hrest := ih h
      have hadd : (total + file.expectedSize).toNat
          = total.toNat + file.expectedSize.toNat := by
        rw [UInt64.toNat_add, Nat.mod_eq_of_lt]
        simp only [addWouldOverflow, decide_eq_true_eq, not_lt] at hover
        have := total.toNat_lt
        simp only [UInt64.size] at hover
        omega
      have hle : file.expectedSize.toNat ≤ quota.maxFileBytes.toNat := by
        rw [gt_iff_lt, UInt64.lt_iff_toNat_lt] at hfile
        omega
      refine ⟨?_, ?_, fun _ => ?_, ?_⟩
      · rw [hrest.sum, hadd, List.map_cons, List.sum_cons]
        omega
      · intro other hother
        rcases List.mem_cons.1 hother with rfl | hother
        · exact hle
        · exact hrest.file other hother
      · by_cases hnil : rest = []
        · subst hnil
          cases h
          rw [gt_iff_lt, UInt64.lt_iff_toNat_lt] at hsession
          omega
        · exact hrest.bound hnil
      · obtain ⟨new, hnew, hlen⟩ := hrest.names
        refine ⟨freeName names safe names.length 1 :: new, ?_, ?_⟩
        · rw [hnew, List.append_assoc]
          rfl
        · rw [List.length_cons, List.length_cons, hlen]

/-- The rows `CreateSession` inserts, one for each request. -/
theorem mem_requestRows {drawn : Drawn} {files : List UploadFileRequest}
    {names : List Bytes} {index : Nat} {row : UploadFileRow}
    (h : row ∈ requestRows drawn index files names) :
    ∃ file ∈ files, ∃ i, ∃ safe ∈ names,
      row = requestRow drawn i file safe := by
  induction files generalizing index names with
  | nil => cases names <;> cases h
  | cons file rest ih =>
      cases names with
      | nil => cases h
      | cons safe names =>
      rcases List.mem_cons.1 h with rfl | h
      · exact ⟨file, List.mem_cons_self, index, safe, List.mem_cons_self, rfl⟩
      · obtain ⟨other, hother, i, name, hname, hrow⟩ := ih h
        exact ⟨other, List.mem_cons_of_mem _ hother, i, name,
          List.mem_cons_of_mem _ hname, hrow⟩

/-- The sums over the rows of a session are those over its requests. -/
theorem sum_requestRows {drawn : Drawn} {files : List UploadFileRequest}
    {names : List Bytes} (hlen : names.length = files.length) (index : Nat)
    (size : UploadFileRequest → Int)
    (value : UploadFileRow → Int)
    (hvalue : ∀ i, ∀ file ∈ files, ∀ safe,
      value (requestRow drawn i file safe) = size file) :
    ((requestRows drawn index files names).map value).sum
      = (files.map size).sum := by
  induction files generalizing names index with
  | nil =>
      cases names with
      | nil => rfl
      | cons _ _ => cases hlen
  | cons file rest ih =>
      cases names with
      | nil => cases hlen
      | cons safe names =>
      rw [requestRows, List.map_cons, List.map_cons, List.sum_cons,
        List.sum_cons, hvalue _ _ List.mem_cons_self,
        ih (Nat.succ.inj hlen) _ fun i other hother =>
          hvalue i other (List.mem_cons_of_mem _ hother)]

/-- The session and the files `CreateSession` adds. -/
structure Created (quota : UploadQuota) (drawn : Drawn)
    (files : List UploadFileRequest) (db db' : UploadDb) : Prop where
  admitted : ∃ total names reserved,
    admitFiles quota 0 [] files = .ok (total, names)
    ∧ db.reservedBytes = some reserved
    ∧ withinReserve quota reserved.toUInt64 total = true
    ∧ db'.sessions = db.sessions ++ [sessionRow drawn total]
    ∧ Appended ⟨db'.sessions, db.files⟩ (requestRows drawn 0 files names) db'
  fresh : drawn.sessionId ∉ db.sessions.map (·.sessionId)
  nonempty : files ≠ []

/-- What a session that is created adds. -/
theorem createSession_created {drawn : Drawn} {files : List UploadFileRequest}
    {session : UploadSession}
    (h : UploadDb.createSession quota drawn files db = some (session, db')) :
    Created quota drawn files db db' := by
  unfold UploadDb.createSession at h
  split at h
  · cases h
  rename_i hnonempty
  split at h
  · rename_i total names reserved hadmit hreserved
    split at h
    · rename_i hwithin
      cases hsession : db.insertSession (sessionRow drawn total) with
      | error e =>
          rw [hsession] at h
          cases h
      | ok db₁ =>
      rw [hsession] at h
      obtain ⟨db₂, hall, heq⟩ := Option.map_eq_some_iff.1 h
      cases heq
      have happended := insertAll_appended hall
      unfold insertSession at hsession
      split at hsession
      · cases hsession
      rename_i hnone
      cases hsession
      refine ⟨⟨total, names, reserved, hadmit, hreserved, hwithin,
        happended.sessions, ?_⟩, ?_, ?_⟩
      · rw [happended.sessions]
        exact happended
      · intro hmem
        obtain ⟨other, hother, hid⟩ := List.mem_map.1 hmem
        refine hnone ?_
        rw [session?, List.find?_isSome]
        exact ⟨other, hother, beq_iff_eq.2 hid⟩
      · rintro rfl
        exact hnonempty rfl
    · cases h
  · cases h

/-- Each request fits where the total does. -/
theorem Admitted.file_le {total : UInt64} {names : List Bytes}
    {files : List UploadFileRequest}
    (h : Admitted quota 0 total [] names files) {file : UploadFileRequest}
    (hfile : file ∈ files) : file.expectedSize.toNat ≤ total.toNat := by
  have hle := List.single_le_sum (l := files.map (·.expectedSize.toNat))
    (fun _ _ => Nat.zero_le _) _ (List.mem_map_of_mem hfile)
  have hsum := h.sum
  rw [show (0 : UInt64).toNat = 0 from rfl] at hsum
  omega

/-- What is reserved is read as it is. -/
theorem Sound.reservedBytes (hdb : db.Sound quota) {reserved : Int64}
    (h : db.reservedBytes = some reserved) :
    (reserved.toUInt64.toNat : Int) = db.reserved := by
  have hsum : reserved.toInt = db.reserved := by
    rw [sumInt64_eq h, List.map_map]
    rfl
  rw [toNat_toUInt64, hsum]
  rw [hsum]
  refine List.sum_nonneg fun bytes hbytes => ?_
  obtain ⟨session, hsession, rfl⟩ := List.mem_map.1 hbytes
  have hsound := hdb.sessions session (List.mem_filter.1 hsession).1
  rw [hsound.expected]
  refine List.sum_nonneg fun size hsize => ?_
  obtain ⟨row, hrow, rfl⟩ := List.mem_map.1 hsize
  exact (hdb.files row (mem_filesOf.1 hrow).1).nonneg

/-- The quota left room for the total. -/
theorem withinReserve_le {reserved total : UInt64}
    (h : withinReserve quota reserved total = true) :
    reserved.toNat + total.toNat ≤ quota.maxReservedBytes.toNat := by
  rw [withinReserve, Bool.and_eq_true, Bool.not_eq_true', decide_eq_true_eq,
    UInt64.le_iff_toNat_le] at h
  obtain ⟨hover, hle⟩ := h
  rw [UInt64.toNat_add, Nat.mod_eq_of_lt] at hle
  · exact hle
  · have hlt := reserved.toNat_lt
    simp only [addWouldOverflow, decide_eq_false_iff_not, not_lt,
      UInt64.size] at hover
    omega

/-- A new session within the quota. -/
theorem Sound.created (hdb : db.Sound quota)
    (hquota : quota.maxReservedBytes.toNat < 2 ^ 63) {drawn : Drawn}
    {files : List UploadFileRequest}
    (h : Created quota drawn files db db') : db'.Sound quota := by
  -- the sums fit: what is admitted is within what the quota leaves
  obtain ⟨⟨total, names, reserved, hadmit, hreserved, hwithin, hsessions,
    happended⟩, hfresh, hnonempty⟩ := h
  have hadmitted := admitFiles_admitted hadmit
  have hroom := withinReserve_le hwithin
  have hbefore := hdb.reservedBytes hreserved
  have htotal : total.toInt64.toInt = total.toNat :=
    toInt_toInt64 (by omega)
  have hlen : names.length = files.length := by
    obtain ⟨new, rfl, hlen⟩ := hadmitted.names
    exact hlen
  -- the rows of the new session
  have hrow : ∀ row ∈ requestRows drawn 0 files names,
      row.sessionId = drawn.sessionId ∧ row.Sound quota := by
    intro row hmem
    obtain ⟨file, hfile, i, safe, -, rfl⟩ := mem_requestRows hmem
    have hsize : file.expectedSize.toInt64.toInt = file.expectedSize.toNat :=
      toInt_toInt64 (by have := hadmitted.file_le hfile; omega)
    refine ⟨rfl, ?_, ?_, ?_, ?_, ?_⟩
    · show 0 ≤ file.expectedSize.toInt64.toInt
      omega
    · show file.expectedSize.toInt64.toInt ≤ _
      have := hadmitted.file file hfile
      omega
    · exact ⟨fun h => (by cases h), fun h => (by cases h)⟩
    · exact fun h => (by cases h)
    · exact fun _ => rfl
  -- the old rows are of other sessions
  have hold : ∀ row ∈ db.files, row.sessionId ≠ drawn.sessionId := by
    intro row hmem heq
    exact hfresh (heq ▸ hdb.home row hmem)
  have hfiles : ∀ s, db'.filesOf s
      = db.filesOf s ++ filesOf ⟨[], requestRows drawn 0 files names⟩ s := by
    intro s
    unfold filesOf
    rw [happended.files, List.filter_append]
  have hnew : ∀ s, s ≠ drawn.sessionId →
      filesOf ⟨[], requestRows drawn 0 files names⟩ s = [] := by
    intro s hs
    refine List.filter_eq_nil_iff.2 fun row hmem heq => hs ?_
    rw [← (hrow row hmem).1]
    exact (beq_iff_eq.1 heq).symm
  -- session ids, keys and places, homes, files, sessions, and the reserve
  refine ⟨?_, happended.keys hdb.keys, happended.places hdb.places, ?_, ?_, ?_, ?_⟩
  · rw [hsessions, List.map_append, List.map_singleton, List.nodup_append]
    refine ⟨hdb.sessionIds, List.nodup_singleton _, ?_⟩
    intro s hs s' hs' heq
    rw [List.mem_singleton.1 hs'] at heq
    subst heq
    exact hfresh hs
  · intro row hmem
    rw [hsessions, List.map_append, List.map_singleton, List.mem_append]
    rw [happended.files] at hmem
    rcases List.mem_append.1 hmem with hmem | hmem
    · exact .inl (hdb.home row hmem)
    · rw [(hrow row hmem).1]
      exact .inr List.mem_cons_self
  · intro row hmem
    rw [happended.files] at hmem
    rcases List.mem_append.1 hmem with hmem | hmem
    · exact hdb.files row hmem
    · exact (hrow row hmem).2
  · intro session hsession
    rw [hsessions] at hsession
    rcases List.mem_append.1 hsession with hsession | hsession
    · have hne : session.sessionId ≠ drawn.sessionId := by
        intro heq
        exact hfresh (heq ▸ List.mem_map_of_mem hsession)
      rw [hfiles, hnew _ hne, List.append_nil]
      exact hdb.sessions session hsession
    · rw [List.mem_singleton.1 hsession]
      have hall : db'.filesOf drawn.sessionId
          = requestRows drawn 0 files names := by
        rw [hfiles]
        have hnone : db.filesOf drawn.sessionId = [] :=
          List.filter_eq_nil_iff.2 fun row hmem heq =>
            hold row hmem (beq_iff_eq.1 heq)
        rw [hnone, List.nil_append]
        refine List.filter_eq_self.2 fun row hmem => beq_iff_eq.2 ?_
        exact (hrow row hmem).1
      show (sessionRow drawn total).Sound quota (db'.filesOf drawn.sessionId)
      rw [hall]
      refine ⟨?_, ?_, ?_, fun h => by cases h⟩
      · show total.toInt64.toInt = _
        rw [sum_requestRows hlen 0 (fun file => (file.expectedSize.toNat : Int))
          (fun row => row.expectedSize.toInt), htotal, hadmitted.sum]
        · rw [show (0 : UInt64).toNat = 0 from rfl, Nat.zero_add,
            Nat.cast_list_sum, List.map_map]
          rfl
        · intro i file hfile safe
          exact toInt_toInt64 (by have := hadmitted.file_le hfile; omega)
      · show total.toInt64.toInt ≤ _
        have := hadmitted.bound hnonempty
        omega
      · show (0 : Int64).toInt = _
        rw [sum_requestRows hlen 0 (fun _ => 0) (fun row => row.receivedSize.toInt)
          (fun _ _ _ _ => rfl)]
        simp
  · have hsum : db'.reserved = db.reserved + total.toInt64.toInt := by
      unfold UploadDb.reserved
      rw [hsessions, List.filter_append, List.map_append, List.sum_append]
      simp [sessionRow]
    omega

end UploadDb

-- ========================================================= any operation

/-- The operation admits sessions under this quota. -/
def Operation.Under (quota : UploadQuota) : Operation → Prop
  | .createSession quota' _ _ => quota' = quota
  | _ => True

/-- Every operation keeps the tables in order. -/
theorem Operation.effect_follows {quota : UploadQuota} {db db' : UploadDb}
    (hdb : db.Sound quota) (hquota : quota.maxReservedBytes.toNat < 2 ^ 63)
    {op : Operation} (hop : op.Under quota) {v : op.Answer}
    (h : op.effect db = some (v, db')) : UploadDb.Follows quota db db' := by
  cases op with
  | createSession quota' drawn files =>
      have hsame : quota' = quota := hop
      subst hsame
      have hcreated := UploadDb.createSession_created h
      refine ⟨hdb.created hquota hcreated, fun row hrow _ => ?_⟩
      obtain ⟨⟨_, _, _, _, _, _, _, happended⟩, _, _⟩ := hcreated
      rw [happended.files]
      exact List.mem_append_left _ hrow
  | beginUpload s f =>
      have hbegun := hdb.begin_ s f
      simp only [Operation.effect, UploadDb.beginUpload] at h
      split at h
      · cases h
      · split at h
        · cases h
          exact hdb.follows
        · cases h
          exact hdb.follows
        · split at h
          · cases h
            exact hbegun
          · cases h
  | markUploadFailed s f =>
      cases h
      exact hdb.markFailed s f
  | commitUpload s f size digest => exact hdb.commitUpload h
  | completeSession s =>
      have hcompleted : UploadDb.completeSession s db = some ((), db') := h
      unfold UploadDb.completeSession at hcompleted
      split at hcompleted
      · cases hcompleted
      · rename_i hchecks
        cases hcompleted
        have hall : (db.completion s).2 = 0 := by
          by_cases hzero : (db.completion s).2 = 0
          · exact hzero
          · exact absurd (.inr (.inl hzero)) hchecks
        exact ⟨hdb.complete hall, fun row hrow _ => hrow⟩

end PhotoBridge.Upload
