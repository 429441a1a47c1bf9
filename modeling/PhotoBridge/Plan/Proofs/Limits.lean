/-
Where writer and reader of frozen plan files disagree.

The writer refuses plan ids with a NUL and writes lines of any length.
The reader takes any id that is not empty and refuses lines of more than
1 MiB. So a file that was written is read back exactly if its records
fit the reader's lines, and an id that was read may be written exactly
if it holds no NUL. The texts of a plan need not say anything about its
id: the library throws at ids that are not UTF-8.
-/
import PhotoBridge.Lib.Joining
import PhotoBridge.Plan.Proofs.Artifact

namespace PhotoBridge

open JsonText

variable {plan : CanonicalMinimalPlan} {planId : Bytes} {codec : Codec}

/-- Every record of the plan fits a line of the reader's. -/
def FitsLines (codec : Codec) (plan : CanonicalMinimalPlan)
    (planId : Bytes) : Prop :=
  ∀ record ∈ planRecords plan planId, ∀ line,
    codec.dump record = .ok line → line.length ≤ maxJsonLineBytes

-- ================================================================ writing

/-- What the writer refuses. -/
def planIdRefused : Status :=
  .invalid "plan id must be non-empty and must not contain NUL"

/-- The status of a plan that is not written for its id's sake differs
from every other failure of the writer. -/
theorem writeFrozenPlan_refused (blake3 : Bytes → Digest) :
    writeFrozenPlan codec blake3 plan planId = .error planIdRefused
      ↔ (planId.isEmpty || hasNul planId) = true := by
  unfold writeFrozenPlan
  split
  · next h => exact iff_of_true rfl h
  · next h =>
    refine iff_of_false (fun hrefused => ?_) h
    unfold serialize planLines at hrefused
    cases hdump : (planRecords plan planId).mapM codec.dump with
    | ok lines =>
        rw [hdump] at hrefused
        cases hrefused
    | error what =>
        rw [hdump] at hrefused
        have hcode := congrArg Status.code (Except.error.inj hrefused)
        cases hcode

theorem writeFrozenPlan_split {blake3 : Bytes → Digest} {file : FrozenPlanFile}
    (h : writeFrozenPlan codec blake3 plan planId = .ok file) :
    planId.isEmpty = false ∧ hasNul planId = false
      ∧ ∃ lines, planLines codec plan planId = .ok lines
        ∧ file.bytes = lines.flatMap (· ++ [10]) := by
  unfold writeFrozenPlan at h
  split at h
  · cases h
  · next hid =>
    simp only [Bool.not_eq_true, Bool.or_eq_false_iff] at hid
    refine ⟨hid.1, hid.2, ?_⟩
    unfold serialize at h
    cases hlines : planLines codec plan planId with
    | error e =>
        rw [hlines] at h
        cases h
    | ok lines =>
        rw [hlines] at h
        cases h
        exact ⟨lines, rfl, rfl⟩

/-- The records were written one by one. -/
theorem planLines_dumped {lines : List Bytes}
    (h : planLines codec plan planId = .ok lines) :
    List.Forall₂ (fun record line => codec.dump record = .ok line)
      (planRecords plan planId) lines := by
  unfold planLines at h
  cases hdump : (planRecords plan planId).mapM codec.dump with
  | error what =>
      rw [hdump] at h
      cases h
  | ok written =>
      rw [hdump] at h
      cases h
      exact Joining.mapM_ok.1 hdump

/-- A strict library has written UTF-8 ids only. -/
theorem isUtf8_of_written (hstrict : codec.Strict) {lines : List Bytes}
    (h : planLines codec plan planId = .ok lines) : IsUtf8 planId := by
  have hdumped := planLines_dumped h
  obtain ⟨line, rest, hheader, -, -⟩ := List.forall₂_cons_left_iff.1 hdumped
  refine hstrict _ line hheader (member "plan_id" (.string planId)) ?_
    planId rfl
  rw [Sorting.mem_sortBy]
  simp

-- ================================================================ reading

/-- No line that was read is longer than the reader's limit. -/
theorem splitLines_size {lines read : List Bytes}
    (hlines : ∀ line ∈ lines, 10 ∉ line)
    (h : splitLines [] (lines.flatMap (· ++ [10])) = .ok read) :
    ∀ line ∈ lines, line.length ≤ maxJsonLineBytes := by
  induction lines generalizing read with
  | nil => simp
  | cons line rest ih =>
      rw [List.flatMap_cons, List.append_assoc,
        splitLines_append (hlines line List.mem_cons_self), List.nil_append]
        at h
      change splitLines line (10 :: rest.flatMap (· ++ [10])) = _ at h
      rw [splitLines, if_neg (not_not.2 rfl)] at h
      split at h
      · cases h
      · next hcheck =>
        simp only [Bool.or_eq_true, decide_eq_true_eq, not_or, not_lt]
          at hcheck
        cases hrest : splitLines [] (rest.flatMap (· ++ [10])) with
        | error e =>
            rw [hrest] at h
            cases h
        | ok more =>
            have htail := ih (fun l hl => hlines l (List.mem_cons_of_mem _ hl))
              hrest
            intro l hl
            rcases List.mem_cons.1 hl with rfl | hl
            · exact hcheck.1.1.2
            · exact htail l hl

/-- A header has an id. -/
theorem parseHeader_planId {header : Json} {input : MinimalPlanInput}
    (h : parseHeader header = .ok (planId, input)) :
    planId.isEmpty = false
      ∧ requiredString header "plan_id" = .ok planId := by
  unfold parseHeader at h
  obtain ⟨-, -, h⟩ := Joining.bind_ok.1 h
  obtain ⟨id, hstring, h⟩ := Joining.bind_ok.1 h
  split at h
  · cases h
  obtain ⟨manifestId, -, h⟩ := Joining.bind_ok.1 h
  obtain ⟨manifestDigest, -, h⟩ := Joining.bind_ok.1 h
  obtain ⟨targetRoot, -, h⟩ := Joining.bind_ok.1 h
  split at h
  · cases h
  split at h
  · cases h
  next hid =>
  obtain ⟨decodedRoot, -, h⟩ := Joining.bind_ok.1 h
  obtain ⟨digest, -, h⟩ := Joining.bind_ok.1 h
  split at h
  · obtain ⟨policy, -, h⟩ := Joining.bind_ok.1 h
    obtain ⟨version, -, h⟩ := Joining.bind_ok.1 h
    obtain ⟨entries, -, h⟩ := Joining.bind_ok.1 h
    cases h
    exact ⟨Bool.not_eq_true _ ▸ hid, hstring⟩
  · cases h
  · cases h

/-- What the reader accepts has an id, splits into lines, and holds a plan
that the checks let through. -/
theorem readFrozenPlan_ok {blake3 : Bytes → Digest} {bytes : Bytes}
    {file : FrozenPlanFile}
    (h : readFrozenPlan codec blake3 bytes = .ok file) :
    file.planId.isEmpty = false
      ∧ (∃ lines, splitLines [] bytes = .ok lines)
      ∧ (∃ input, CanonicalMinimalPlan.build input = .ok file.plan)
      ∧ ∃ line header, codec.parse line = .ok header
        ∧ requiredString header "plan_id" = .ok file.planId := by
  unfold readFrozenPlan at h
  obtain ⟨⟨id, built⟩, hparsed, h⟩ := Joining.bind_ok.1 h
  cases h
  unfold parsePlan at hparsed
  split at hparsed
  · cases hparsed
  obtain ⟨lines, hlines, h⟩ := Joining.bind_ok.1 hparsed
  obtain ⟨records, hrecords, h⟩ := Joining.bind_ok.1 h
  split at h
  · cases h
  · next header rest =>
    obtain ⟨⟨headerId, head⟩, hheader, h⟩ := Joining.bind_ok.1 h
    obtain ⟨⟨assets, sections⟩, -, h⟩ := Joining.bind_ok.1 h
    obtain ⟨after, -, h⟩ := Joining.bind_ok.1 h
    obtain ⟨-, -, h⟩ := Joining.bind_ok.1 h
    obtain ⟨plan, hbuild, h⟩ := Joining.bind_ok.1 h
    cases h
    obtain ⟨hid, hstring⟩ := parseHeader_planId hheader
    obtain ⟨line, hparse⟩ : ∃ line, codec.parse line = .ok header := by
      cases hparse : lines.mapM codec.parse with
      | error what =>
          rw [hparse] at hrecords
          cases hrecords
      | ok parsed =>
          rw [hparse] at hrecords
          cases hrecords
          obtain ⟨line, more, hline, -⟩ :=
            List.forall₂_cons_right_iff.1 (Joining.mapM_ok.1 hparse)
          exact ⟨line, hline⟩
    exact ⟨hid, ⟨lines, hlines⟩, ⟨_, hbuild⟩, line, header, hparse, hstring⟩

/-- The id is a string, so it is UTF-8 where the library reads nothing
else. -/
theorem readFrozenPlan_utf8 (hencoded : codec.Encoded)
    {blake3 : Bytes → Digest} {bytes : Bytes} {file : FrozenPlanFile}
    (h : readFrozenPlan codec blake3 bytes = .ok file) :
    IsUtf8 file.planId := by
  obtain ⟨-, -, -, line, header, hparse, hid⟩ := readFrozenPlan_ok h
  refine hencoded line header hparse (text "plan_id") file.planId ?_
  unfold requiredString at hid
  split at hid
  · next hfind =>
    cases hid
    exact hfind
  · cases hid

-- ========================================================= both directions

/-- Records that fit the lines are lines the reader takes. -/
theorem fitsLines_iff {lines : List Bytes}
    (h : planLines codec plan planId = .ok lines) :
    FitsLines codec plan planId
      ↔ ∀ line ∈ lines, line.length ≤ maxJsonLineBytes := by
  have hdumped := planLines_dumped h
  constructor
  · intro hfits line hline
    obtain ⟨record, hrecord, hdump⟩ :=
      Joining.forall₂_exists_left hdumped hline
    exact hfits record hrecord line hdump
  · intro hfits record hrecord line hdump
    obtain ⟨written, hwritten, hdump'⟩ :=
      Joining.forall₂_exists_right hdumped hrecord
    cases hdump.symm.trans hdump'
    exact hfits line hwritten

/-- A file that was written is read back exactly if its records fit the
reader's lines; an id that was read is one the writer takes exactly if
it holds no NUL. -/
theorem frozenPlan_limits (codec : Codec) (hlawful : codec.Lawful)
    (hstrict : codec.Strict) (blake3 : Bytes → Digest) :
    (∀ (input : MinimalPlanInput) (plan : CanonicalMinimalPlan)
        (planId : Bytes) (file : FrozenPlanFile),
      CanonicalMinimalPlan.build input = .ok plan → plan.Textual →
      writeFrozenPlan codec blake3 plan planId = .ok file →
      ((∃ reread, readFrozenPlan codec blake3 file.bytes = .ok reread)
        ↔ FitsLines codec plan planId))
      ∧ ∀ (bytes : Bytes) (file : FrozenPlanFile)
          (plan : CanonicalMinimalPlan),
        readFrozenPlan codec blake3 bytes = .ok file →
        (writeFrozenPlan codec blake3 plan file.planId
            ≠ .error planIdRefused
          ↔ hasNul file.planId = false) := by
  constructor
  · intro input plan planId file hbuild htext hwrite
    obtain ⟨hid, -, lines, hlines, hbytes⟩ := writeFrozenPlan_split hwrite
    have hutf8 := isUtf8_of_written hstrict hlines
    obtain ⟨lines', hlines', hparse, hshape⟩ :=
      planLines_spec hlawful htext hutf8
    cases hlines.symm.trans hlines'
    rw [fitsLines_iff hlines, hbytes]
    constructor
    · rintro ⟨reread, hread⟩
      obtain ⟨-, ⟨read, hsplit⟩, -⟩ := readFrozenPlan_ok hread
      exact splitLines_size (fun line hline => (hshape line hline).1) hsplit
    · intro hsize
      have hplanLines : ∀ line ∈ lines, IsPlanLine line := fun line hline =>
        ⟨(hshape line hline).1, (hshape line hline).2.1,
          (hshape line hline).2.2, hsize line hline⟩
      exact ⟨_, readFrozenPlan_lines codec blake3 hbuild hid hplanLines hparse⟩
  · intro bytes file plan hread
    have hid := (readFrozenPlan_ok hread).1
    rw [ne_eq, writeFrozenPlan_refused, hid, Bool.false_or,
      Bool.not_eq_true]

-- ================================================================ albums

theorem writeFrozenPlan_lines (blake3 : Bytes → Digest) {lines : List Bytes}
    (hid : planId.isEmpty = false ∧ hasNul planId = false)
    (hlines : planLines codec plan planId = .ok lines) :
    ∃ file, writeFrozenPlan codec blake3 plan planId = .ok file
      ∧ file.bytes = lines.flatMap (· ++ [10]) := by
  unfold writeFrozenPlan serialize
  rw [hid.1, hid.2, hlines]
  exact ⟨_, rfl, rfl⟩

/-- An id that is UTF-8 makes the album's lines. -/
theorem album_lines (hid : IsUtf8 planId) :
    ∃ lines, planLines strict (.ofInput (albumOf [beach, attic])) planId
        = .ok lines
      ∧ lines.mapM strict.parse
        = .ok (planRecords (.ofInput (albumOf [beach, attic])) planId)
      ∧ ∀ line ∈ lines, 10 ∉ line ∧ line.head? = some 123
          ∧ line.getLast? = some 125 :=
  planLines_spec strict_lawful album_textual hid

/-- The lines of the album under this id fit the reader's. -/
def albumFits (planId : Bytes) : Bool :=
  match planLines strict (.ofInput (albumOf [beach, attic])) planId with
  | .ok lines => lines.all (·.length ≤ maxJsonLineBytes)
  | .error _ => false

private theorem albumFits_size {lines : List Bytes}
    (hlines : planLines strict (.ofInput (albumOf [beach, attic])) planId
      = .ok lines) (hfits : albumFits planId = true) :
    ∀ line ∈ lines, line.length ≤ maxJsonLineBytes := by
  unfold albumFits at hfits
  rw [hlines] at hfits
  intro line hline
  exact of_decide_eq_true (List.all_eq_true.1 hfits line hline)

/-- The album is read under any id that fits. -/
theorem album_read (hutf8 : IsUtf8 planId) (hid : planId.isEmpty = false)
    (hfits : albumFits planId = true) :
    ∃ lines, planLines strict (.ofInput (albumOf [beach, attic])) planId
        = .ok lines
      ∧ readFrozenPlan strict (fun _ => .zero) (lines.flatMap (· ++ [10]))
        = .ok ⟨planId, lines.flatMap (· ++ [10]), .zero, .zero,
          .ofInput (albumOf [beach, attic])⟩ := by
  obtain ⟨lines, hlines, hparse, hshape⟩ := album_lines hutf8
  have hsize := albumFits_size hlines hfits
  exact ⟨lines, hlines, readFrozenPlan_lines strict (fun _ => .zero)
    (build_ok.2 ⟨validatePlanInput_ok.1 album_accepted.1, rfl⟩) hid
    (fun line hline => ⟨(hshape line hline).1, (hshape line hline).2.1,
      (hshape line hline).2.2, hsize line hline⟩) hparse⟩

/-- The album is written, read back, and its id may be written again. -/
theorem frozenPlan_limits_album :
    ∃ file reread, writeFrozenPlan strict (fun _ => .zero)
        (.ofInput (albumOf [beach, attic])) (text "plan") = .ok file
      ∧ readFrozenPlan strict (fun _ => .zero) file.bytes = .ok reread
      ∧ writeFrozenPlan strict (fun _ => .zero) reread.plan reread.planId
        ≠ .error planIdRefused := by
  obtain ⟨hfile, hid⟩ := frozenPlan_limits strict strict_lawful strict_strict
    fun _ => .zero
  have hfits : albumFits (text "plan") = true := by decide +kernel
  obtain ⟨lines, hlines, hagain⟩ :=
    album_read (isUtf8_text "plan") (by decide +kernel) hfits
  obtain ⟨file, hwrite, hbytes⟩ := writeFrozenPlan_lines (fun _ => .zero)
    (by decide +kernel) hlines
  obtain ⟨reread, hread⟩ := (hfile _ _ _ _
    (build_ok.2 ⟨validatePlanInput_ok.1 album_accepted.1, rfl⟩)
    album_textual hwrite).2
      ((fitsLines_iff hlines).2 (albumFits_size hlines hfits))
  refine ⟨file, reread, hwrite, hread, (hid _ _ reread.plan hread).2 ?_⟩
  rw [← hbytes, hread] at hagain
  cases hagain
  exact (by decide +kernel : hasNul (text "plan") = false)

/-- An id of 1 MiB. -/
def longId : Bytes := List.replicate maxJsonLineBytes 97

private theorem longId_spec :
    IsUtf8 longId ∧ longId.isEmpty = false ∧ hasNul longId = false := by
  refine ⟨isUtf8_of_ascii fun b hb => ?_, ?_, ?_⟩
  · rw [List.eq_of_mem_replicate hb]
    decide
  · rw [List.isEmpty_eq_false_iff]
    exact List.ne_nil_of_length_pos (by
      rw [longId, List.length_replicate]
      decide)
  · rw [hasNul, longId, List.contains_eq_mem, decide_eq_false_iff_not]
    intro hmem
    exact absurd (List.eq_of_mem_replicate hmem) (by decide)

/-- The header is longer than the id in it. -/
theorem header_length {lines : List Bytes}
    (h : planLines strict plan planId = .ok lines) :
    ∃ line ∈ lines, planId.length < line.length := by
  have hdumped := planLines_dumped h
  obtain ⟨line, rest, hheader, -, rfl⟩ := List.forall₂_cons_left_iff.1 hdumped
  have hprint : JsonText.print (headerJson plan planId) = line :=
    Except.ok.inj (strict_dump hheader)
  refine ⟨line, List.mem_cons_self, ?_⟩
  rw [← hprint, headerJson, Json.ofMembers, JsonText.print,
    List.length_cons]
  rw [List.length_append, Nat.lt_succ_iff]
  refine Nat.le_add_right_of_le
    (@length_printMembers _ (text "plan_id") planId ?_)
  rw [Sorting.mem_sortBy]
  simp [member]

/-- The album is written under a long id and not read back; it is read
under an id with a NUL and not written. -/
theorem frozenPlan_limits_broken :
    (∃ file, writeFrozenPlan strict (fun _ => .zero)
        (.ofInput (albumOf [beach, attic])) longId = .ok file
      ∧ ∀ reread,
        readFrozenPlan strict (fun _ => .zero) file.bytes ≠ .ok reread)
      ∧ ∃ bytes file, readFrozenPlan strict (fun _ => .zero) bytes = .ok file
        ∧ writeFrozenPlan strict (fun _ => .zero) file.plan file.planId
          = .error planIdRefused := by
  constructor
  · obtain ⟨hutf8, hid⟩ := longId_spec
    obtain ⟨lines, hlines, -, hshape⟩ := album_lines hutf8
    obtain ⟨file, hwrite, hbytes⟩ :=
      writeFrozenPlan_lines (fun _ => .zero) hid hlines
    refine ⟨file, hwrite, fun reread hread => ?_⟩
    obtain ⟨-, ⟨read, hsplit⟩, -⟩ := readFrozenPlan_ok hread
    rw [hbytes] at hsplit
    obtain ⟨line, hline, hlong⟩ := header_length hlines
    have hshort := splitLines_size (fun line hline => (hshape line hline).1)
      hsplit line hline
    rw [longId, List.length_replicate] at hlong
    omega
  · obtain ⟨lines, -, hread⟩ := @album_read [0] ⟨"\x00", by decide +kernel⟩
      rfl (by decide +kernel)
    exact ⟨_, _, hread, (writeFrozenPlan_refused _).2 rfl⟩

end PhotoBridge
