/-
The names `CreateSession` assigns, whatever SQLite and the file system
answer (`createSession_assigned`). The loop over suffixes ends at the
first candidate no earlier file has (`freeName_first`); what the session
returned says about its files is read off the requests one by one.
-/
import PhotoBridge.Upload.Proofs.Names

namespace PhotoBridge.Upload

open Concurrent SharedConnection

-- ========================================================= the collision loop

/-- The candidate the loop over suffixes stops at: all before it are used. -/
structure FirstFree (used : List Bytes) (safe name : Bytes) (k : Nat) : Prop where
  pos : 0 < k
  candidate : name = withCollisionSuffix safe k
  free : name ∉ used
  before : ∀ j, 0 < j → j < k → withCollisionSuffix safe j ∈ used

theorem freeName_first (used : List Bytes) (safe : Bytes) (fuel suffix : Nat)
    (hfree : freeName used safe fuel suffix ∉ used) :
    ∃ k, suffix ≤ k ∧ freeName used safe fuel suffix = withCollisionSuffix safe k
      ∧ ∀ j, suffix ≤ j → j < k → withCollisionSuffix safe j ∈ used := by
  induction fuel generalizing suffix with
  | zero => exact ⟨suffix, le_rfl, rfl, fun j hj hlt => by omega⟩
  | succ fuel ih =>
      rw [freeName] at hfree ⊢
      split at hfree
      · rename_i hused
        rw [if_pos hused]
        obtain ⟨k, hle, hname, hbefore⟩ := ih (suffix + 1) hfree
        refine ⟨k, by omega, hname, fun j hj hlt => ?_⟩
        rcases Nat.eq_or_lt_of_le hj with rfl | hj
        · exact hused
        · exact hbefore j hj hlt
      · rename_i hunused
        rw [if_neg hunused]
        exact ⟨suffix, le_rfl, rfl, fun j hj hlt => by omega⟩

private theorem freeName_firstFree (used : List Bytes) (safe : Bytes) :
    ∃ k, FirstFree used safe (freeName used safe used.length 1) k := by
  have hfree := freeName_free used safe 1
  obtain ⟨k, hpos, hname, hbefore⟩ := freeName_first used safe _ 1 hfree
  exact ⟨k, hpos, hname, hfree, hbefore⟩

/-- The original name is taken if it is free, and only then. -/
theorem FirstFree.kept {used : List Bytes} {safe name : Bytes} {k : Nat}
    (h : FirstFree used safe name k) : name = safe ↔ safe ∉ used := by
  constructor
  · rintro rfl
    exact h.free
  · intro hfree
    by_contra hne
    have hk : 1 < k := by
      rcases Nat.lt_or_ge 1 k with hk | hk
      · exact hk
      · have hone : k = 1 := Nat.le_antisymm hk h.pos
        rw [h.candidate, hone] at hne
        exact absurd rfl hne
    exact hfree (h.before 1 Nat.one_pos hk)

-- ================================================================ safe names

/-- A single component of a path, and nothing a terminal or another system
would read differently. -/
structure IsSafeName (name : Bytes) : Prop where
  nonempty : name ≠ []
  not_dot : name ≠ text "."
  not_dots : name ≠ text ".."
  bytes : ∀ byte ∈ name, byte ≠ 47 ∧ byte ≠ 92 ∧ byte ≠ 0 ∧ 0x20 ≤ byte
    ∧ byte ≠ 0x7f

private theorem safeFilename_safe {original safe : Bytes}
    (h : safeFilename original = .ok safe) : safe = original ∧ IsSafeName safe := by
  unfold safeFilename at h
  split at h
  · cases h
  rename_i hdots
  split at h
  · cases h
  split at h
  · cases h
  rename_i hunsafe
  cases h
  simp only [Bool.or_eq_true, List.isEmpty_iff, beq_iff_eq, not_or] at hdots
  refine ⟨rfl, hdots.1.1, hdots.1.2, hdots.2, fun byte hbyte => ?_⟩
  have hsafe : ¬isUnsafeByte byte = true := fun hbad =>
    hunsafe (List.any_eq_true.2 ⟨byte, hbyte, hbad⟩)
  simp only [isUnsafeByte, Bool.or_eq_true, beq_iff_eq, decide_eq_true_eq,
    not_or, UInt8.not_lt] at hsafe
  obtain ⟨⟨⟨⟨hnul, hslash⟩, hback⟩, hcontrol⟩, hdelete⟩ := hsafe
  exact ⟨hslash, hback, hnul, hcontrol, hdelete⟩

private theorem digit_safe {byte : UInt8} (h : 48 ≤ byte ∧ byte ≤ 57) :
    byte ≠ 47 ∧ byte ≠ 92 ∧ byte ≠ 0 ∧ 0x20 ≤ byte ∧ byte ≠ 0x7f := by
  simp only [UInt8.le_iff_toNat_le, ne_eq, ← UInt8.toNat_inj,
    UInt8.reduceToNat] at h ⊢
  omega

/-- A number keeps a name safe. -/
theorem IsSafeName.withCollisionSuffix {value : Bytes} (h : IsSafeName value)
    (k : Nat) : IsSafeName (withCollisionSuffix value k) := by
  by_cases hk : k = 1
  · subst hk
    exact h
  obtain ⟨front, back, hparted⟩ := exists_parted value
  rw [hparted.numbered k hk]
  have hlong : 3 ≤ (front ++ (text "__" ++ decimal k) ++ back).length := by
    have htext : (text "__").length = 2 := by decide
    have hdigits := List.length_pos_iff.2 (decimal_ne_nil k)
    simp only [List.length_append, htext]
    omega
  refine ⟨fun hnil => ?_, fun hdot => ?_, fun hdots => ?_, fun byte hbyte => ?_⟩
  · rw [hnil] at hlong
    exact absurd hlong (by decide)
  · rw [hdot] at hlong
    exact absurd hlong (by decide)
  · rw [hdots] at hlong
    exact absurd hlong (by decide)
  · have hbytes := h.bytes
    rw [hparted.whole] at hbytes
    simp only [List.mem_append] at hbyte hbytes
    rcases hbyte with (hbyte | hbyte | hbyte) | hbyte
    · exact hbytes byte (.inl hbyte)
    · have hunder : ∀ byte ∈ text "__", byte ≠ 47 ∧ byte ≠ 92 ∧ byte ≠ 0
          ∧ (0x20 : UInt8) ≤ byte ∧ byte ≠ 0x7f := by decide +kernel
      exact hunder byte hbyte
    · exact digit_safe (mem_decimal hbyte)
    · exact hbytes byte (.inr hbyte)

-- =============================================================== the session

/-- What the session says of the file a request asked for, when these are
the files of the requests before it. -/
structure AssignedTo (earlier : List UploadFile) (request : UploadFileRequest)
    (file : UploadFile) : Prop where
  original : file.originalFilename = request.originalFilename
  size : file.expectedSize = request.expectedSize
  digest : file.clientDigest = request.clientDigest
  safe : IsSafeName file.safeFilename
  found : ∃ k, FirstFree (earlier.map (·.safeFilename))
    request.originalFilename file.safeFilename k
  kept : file.safeFilename = request.originalFilename
    ↔ request.originalFilename ∉ earlier.map (·.safeFilename)

/-- The files of a session against the requests for them. -/
structure Assigned (requests : List UploadFileRequest)
    (files : List UploadFile) : Prop where
  length : files.length = requests.length
  each : ∀ i (hr : i < requests.length) (hf : i < files.length),
    AssignedTo (files.take i) requests[i] files[i]
  distinct : (files.map (·.safeFilename)).Nodup

/-- The names found for these requests, `used` by others before. -/
theorem admitFiles_found {quota : UploadQuota} {requests : List UploadFileRequest}
    {total total' : UInt64} {used names' : List Bytes}
    (h : admitFiles quota total used requests = .ok (total', names')) :
    ∃ names, names' = used ++ names ∧ names.length = requests.length
      ∧ ∀ i (hr : i < requests.length) (hn : i < names.length),
        safeFilename requests[i].originalFilename
            = .ok requests[i].originalFilename
          ∧ ∃ k, FirstFree (used ++ names.take i)
            requests[i].originalFilename names[i] k := by
  induction requests generalizing total used with
  | nil =>
      cases h
      exact ⟨[], (List.append_nil _).symm, rfl, nofun⟩
  | cons request rest ih =>
      rw [admitFiles] at h
      split at h
      · cases h
      split at h
      · cases h
      split at h
      · cases h
      split at h
      · cases h
      rename_i safe hsafe
      obtain ⟨rfl, -⟩ := safeFilename_ok hsafe
      obtain ⟨names, rfl, hlength, hnames⟩ := ih h
      refine ⟨freeName used request.originalFilename used.length 1 :: names,
        ?_, congrArg (· + 1) hlength, fun i hr hn => ?_⟩
      · rw [List.append_assoc, List.singleton_append]
      · cases i with
        | zero =>
            rw [List.take_zero, List.append_nil]
            exact ⟨hsafe, freeName_firstFree used _⟩
        | succ i =>
            have hrest := hnames i (by simpa using hr) (by simpa using hn)
            rw [List.append_assoc, List.singleton_append] at hrest
            exact hrest

theorem requestRows_getElem {drawn : Drawn} {requests : List UploadFileRequest}
    {names : List Bytes} (hlength : names.length = requests.length)
    (index : Nat) :
    (requestRows drawn index requests names).length = requests.length
      ∧ ∀ i (hr : i < requests.length) (hn : i < names.length)
        (h : i < (requestRows drawn index requests names).length),
        (requestRows drawn index requests names)[i]
          = requestRow drawn (index + i) requests[i] names[i] := by
  induction requests generalizing names index with
  | nil =>
      cases names with
      | nil => exact ⟨rfl, nofun⟩
      | cons _ _ => cases hlength
  | cons request rest ih =>
      cases names with
      | nil => cases hlength
      | cons name names =>
          obtain ⟨hrows, hat⟩ := ih (Nat.succ.inj hlength) (index + 1)
          refine ⟨congrArg (· + 1) hrows, fun i hr hn h => ?_⟩
          cases i with
          | zero => rfl
          | succ i =>
              have hrest := hat i (by simpa using hr) (by simpa using hn)
                (by rw [hrows]; simpa using hr)
              rw [show index + (i + 1) = index + 1 + i by omega]
              exact hrest

/-- A session returned is the one made of the names found. -/
def MadeFrom (quota : UploadQuota) (drawn : Drawn)
    (requests : List UploadFileRequest) (r : Except Status UploadSession) : Prop :=
  ∀ session, r = .ok session → ∃ total names,
    admitFiles quota 0 [] requests = .ok (total, names)
      ∧ session = (sessionRow drawn total).toSession
        (requestRows drawn 0 requests names)

private theorem rolledBack_ends {α : Type} {error : StoreM Status}
    {post : Except Status α → Prop} (h : ∀ e, post (.error e)) :
    (rolledBack error).Ends post :=
  fun _ => (Program.ends_all error).bind fun e _ => h e

theorem createSession_ends (quota : UploadQuota) (drawn : Drawn)
    (requests : List UploadFileRequest) :
    (createSession quota drawn requests).Ends (MadeFrom quota drawn requests) := by
  have hfailed : ∀ e, MadeFrom quota drawn requests (.error e) := fun e => nofun
  unfold createSession
  split
  · exact hfailed _
  split
  · exact hfailed _
  rename_i total names hadmit
  rintro (_ | message)
  case some => exact hfailed _
  rintro (_ | message)
  case some => exact rolledBack_ends hfailed
  refine (Program.ends_all (step .reservedBytes)).bind fun reserved _ =>
    .ite (rolledBack_ends hfailed) ?_
  rintro made (_ | message)
  case some => exact rolledBack_ends hfailed
  rintro (_ | message)
  case some => exact rolledBack_ends hfailed
  rintro (_ | _)
  case error => exact rolledBack_ends hfailed
  rintro (_ | message)
  case some => exact rolledBack_ends hfailed
  refine (Program.ends_all (insertFiles _)).bind fun inserted _ =>
    .ite (rolledBack_ends hfailed) ?_
  rintro (_ | message)
  · exact fun session heq => ⟨total, names, hadmit, (Except.ok.inj heq).symm⟩
  · exact fun _ => hfailed _

theorem toSession_files (drawn : Drawn) (total : UInt64)
    (rows : List UploadFileRow) :
    ((sessionRow drawn total).toSession rows).files
      = rows.map UploadFileRow.toFile := rfl

/-- The names of the files of a session are the names found. -/
theorem requestRows_names {drawn : Drawn} {requests : List UploadFileRequest}
    {names : List Bytes} (hlength : names.length = requests.length) :
    ((requestRows drawn 0 requests names).map UploadFileRow.toFile).map
      (·.safeFilename) = names := by
  obtain ⟨hrows, hat⟩ := @requestRows_getElem drawn _ _ hlength 0
  refine List.ext_getElem (by simp [hrows, hlength]) fun i hi hn => ?_
  rw [List.getElem_map, List.getElem_map, hat i (by omega) hn]
  rfl

/-- Whatever SQLite and the file system answer, a session that
`CreateSession` returns has a file for each request, in the order of the
requests, under the first of its candidate names no file before it has;
the names are distinct and safe. -/
theorem createSession_assigned {σ : Type}
    {effects : Effects (interface uploadStatements storeCalls) σ}
    {quota : UploadQuota} {drawn : Drawn} {requests : List UploadFileRequest}
    {session : UploadSession} {s s' : σ}
    (hrun : Returns effects (createSession quota drawn requests) s
      (.ok session) s') :
    Assigned requests session.files := by
  obtain ⟨total, names, hadmit, rfl⟩ :=
    hrun.ends (createSession_ends quota drawn requests) session rfl
  obtain ⟨names', heq, hlength, hfound⟩ := admitFiles_found hadmit
  obtain rfl : names = names' := heq
  have hdistinct := (admitFiles_names hadmit nofun .nil).2
  obtain ⟨hrows, hat⟩ := @requestRows_getElem drawn _ _ hlength 0
  have hnames := @requestRows_names drawn _ _ hlength
  rw [toSession_files]
  refine ⟨by rw [List.length_map, hrows], fun i hr hf => ?_, ?_⟩
  · have hn : i < names.length := by omega
    obtain ⟨hsafe, k, hfirst⟩ := hfound i hr hn
    rw [List.getElem_map, hat i hr hn (by omega), Nat.zero_add]
    have hearlier : (((requestRows drawn 0 requests names).map
        UploadFileRow.toFile).take i).map (·.safeFilename) = names.take i := by
      rw [List.map_take, hnames]
    rw [List.nil_append, ← hearlier] at hfirst
    refine ⟨rfl, UInt64.toUInt64_toInt64 _, rfl, ?_, ⟨k, hfirst⟩, hfirst.kept⟩
    have hname : names[i] = withCollisionSuffix requests[i].originalFilename k :=
      hfirst.candidate
    change IsSafeName names[i]
    rw [hname]
    exact (safeFilename_safe hsafe).2.withCollisionSuffix k
  · rw [hnames]
    exact hdistinct

/-- Three files, the last under the name the second is given. -/
def threeRequests : List UploadFileRequest :=
  [⟨text "a.jpg", 1, none⟩, ⟨text "a.jpg", 1, none⟩, ⟨text "a__2.jpg", 1, none⟩]

def threeNonces : Drawn := digitNonces id

/-- What is outside of the database answers without an error. -/
def quietOutside : (c : storeCalls.Call) → Unit → storeCalls.Answer c × Unit
  | .createDirectories _, s => (none, s)
  | .rowsRead available, s => (available, s)

/-- `CreateSession` of these on a new database, where nothing fails. -/
def threeFiles :
    Except Status UploadSession × Shared Unit UploadDb Unit :=
  (createSession .standard threeNonces threeRequests).eval
    (Shared.answers uploadStatements (text "") quietOutside ())
    (.fresh (Link.opened .empty) ())

theorem createSession_assigned_three :
    ∃ session : UploadSession, Assigned threeRequests session.files
      ∧ session.files.map (·.safeFilename)
        = [text "a.jpg", text "a__2.jpg", text "a__2__2.jpg"] := by
  have hnames : threeFiles.1.map (fun session =>
      session.files.map (·.safeFilename))
        = .ok [text "a.jpg", text "a__2.jpg", text "a__2__2.jpg"] := by
    rfl
  cases hsession : threeFiles.1 with
  | error e =>
      rw [hsession] at hnames
      cases hnames
  | ok session =>
      rw [hsession] at hnames
      have houtside : ∀ c s, anyCall c s (quietOutside c s).1 (quietOutside c s).2 :=
        fun _ _ => trivial
      have hacts : ∀ c w, Shared.Acts uploadStatements false anyCall () c w
          (Shared.answers uploadStatements (text "") quietOutside () c w).1
          (Shared.answers uploadStatements (text "") quietOutside () c w).2 :=
        Shared.answers_acts houtside
      have hrun : Returns _ (createSession .standard threeNonces threeRequests)
          _ threeFiles.1 _ :=
        Program.eval_returns hacts _ _
      rw [hsession] at hrun
      exact ⟨session, createSession_assigned hrun, Except.ok.inj hnames⟩

end PhotoBridge.Upload
