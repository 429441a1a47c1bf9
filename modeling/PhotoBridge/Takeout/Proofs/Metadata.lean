/-
What the resolver selects, and that provenance names the same candidate.

Both sort the candidates of a field, the resolver by the rank of the rule
first and provenance without it. Two candidates the resolver's order does
not tell apart have one asset, one rule and one place in it (`Tied`); only
their values can differ, and then the order they came in decides
(`resolve_perm_iff`). Provenance looks for the first candidate with the
rule and the value selected: one rule has one rank, so in its order too
nothing with that rule comes before what was selected
(`buildProvenance_resolve`).
-/
import PhotoBridge.Plan.Proofs.Canonical
import PhotoBridge.Takeout.Metadata

namespace PhotoBridge.Takeout

open Sorting

variable {field : MetadataField} {ruleset : MetadataRuleset}
  {candidates : List MetadataCandidate} {resolution : ResolutionRecord}
  {a b c : MetadataCandidate}

-- ============================================================== the orders

/-- The order of provenance. -/
def placeLess : MetadataCandidate → MetadataCandidate → Bool :=
  thenBy byAssetId (thenBy byExtractionRule byEvidence)

/-- What the orders do not look beyond. -/
structure Tied (a b : MetadataCandidate) : Prop where
  assetId : a.assetId = b.assetId
  extractionRule : a.extractionRule = b.extractionRule
  evidence : a.evidence = b.evidence

/-- The comparison of places is one to sort by. -/
private theorem placeLess_comparator : Comparator placeLess :=
  (bytesLess_comparator.comap _).thenBy
    ((bytesLess_comparator.comap _).thenBy (bytesLess_comparator.comap _))

/-- The comparison of candidates is one to sort by. -/
private theorem candidateLess_comparator (ruleset : MetadataRuleset) :
    Comparator (candidateLess ruleset) :=
  (Comparator.of_lt.comap _).thenBy placeLess_comparator

/-- Neither before the other: they are tied. -/
theorem placeLess_tied (hab : placeLess a b = false)
    (hba : placeLess b a = false) : Tied a b := by
  unfold placeLess at hab hba
  rw [thenBy_eq_false, thenBy_eq_false] at hab hba
  have hasset := bytesLess_antisymm hab.1 hba.1
  have hrest := hab.2 hba.1
  have hrest' := hba.2 hab.1
  have hrule := bytesLess_antisymm hrest.1 hrest'.1
  exact ⟨hasset, hrule,
    bytesLess_antisymm (hrest.2 hrest'.1) (hrest'.2 hrest.1)⟩

/-- Of tied candidates neither is before the other. -/
theorem Tied.placeLess (h : Tied a b) : placeLess a b = false := by
  simp [Takeout.placeLess, thenBy, byAssetId, byExtractionRule, byEvidence,
    h.assetId, h.extractionRule, h.evidence]

/-- Being tied goes both ways. -/
theorem Tied.symm (h : Tied a b) : Tied b a :=
  ⟨h.assetId.symm, h.extractionRule.symm, h.evidence.symm⟩

/-- Among candidates of one rule the two orders are one. -/
theorem candidateLess_of_rule (h : a.extractionRule = b.extractionRule) :
    candidateLess ruleset a b = placeLess a b := by
  simp [candidateLess, placeLess, thenBy, h]

/-- Candidates that no rule tells apart are tied, too. -/
private theorem candidateLess_tied (hab : candidateLess ruleset a b = false)
    (hba : candidateLess ruleset b a = false) : Tied a b := by
  unfold candidateLess at hab hba
  rw [thenBy_eq_false] at hab hba
  exact placeLess_tied (hab.2 hba.1) (hba.2 hab.1)

/-- No rule tells tied candidates apart. -/
theorem Tied.candidateLess (h : Tied a b) :
    candidateLess ruleset a b = false := by
  rw [candidateLess_of_rule h.extractionRule]
  exact h.placeLess

-- ============================================================== the values

/-- On the values a field can have, equality is that of the values. -/
theorem metadataValuesEqual_iff {v w : MetadataValue}
    (hv : isMetadataValueCompatible field v = true) :
    metadataValuesEqual v w = true ↔ v = w := by
  cases field <;> cases v <;> cases w <;>
    simp_all [isMetadataValueCompatible, MetadataValue.kind,
      metadataValuesEqual]

/-- There is only one source. -/
private theorem oneSource (a b : MetadataSource) : a = b := by
  cases a
  cases b
  rfl

/-- What the resolver requires of a candidate. -/
structure Resolvable (field : MetadataField) (ruleset : MetadataRuleset)
    (candidate : MetadataCandidate) : Prop where
  ofField : candidate.field = field
  assetId : candidate.assetId ≠ []
  compatible : isMetadataValueCompatible field candidate.value = true
  rule : ∃ rule ∈ ruleset.chain, rule.id = candidate.extractionRule
    ∧ rule.field = field ∧ rule.source = candidate.source

/-- What `isResolvable` decides. -/
theorem isResolvable_iff :
    isResolvable field ruleset c = true ↔ Resolvable field ruleset c := by
  unfold isResolvable isMetadataRuleCompatible
  simp only [Bool.not_eq_true', Bool.or_eq_false_iff, bne_eq_false_iff_eq,
    List.isEmpty_eq_false_iff, Bool.not_eq_false', List.any_eq_true,
    Bool.and_eq_true, beq_iff_eq]
  constructor
  · rintro ⟨⟨⟨rfl, hasset⟩, rule, hrule, ⟨hid, hfield⟩, -⟩, hvalue⟩
    exact ⟨rfl, hasset, hvalue, rule, hrule, hid, hfield, oneSource _ _⟩
  · rintro ⟨rfl, hasset, hvalue, rule, hrule, hid, hfield, -⟩
    exact ⟨⟨⟨rfl, hasset⟩, rule, hrule, ⟨hid, hfield⟩, trivial⟩, hvalue⟩

/-- The source is not compared, and there is only one. -/
theorem Resolvable.eq_of_tied (ha : Resolvable field ruleset a)
    (hb : Resolvable field ruleset b) (htied : Tied a b)
    (hvalue : a.value = b.value) : a = b := by
  obtain ⟨assetId, fieldA, valueA, sourceA, rule, evidence⟩ := a
  obtain ⟨assetId', fieldB, valueB, sourceB, rule', evidence'⟩ := b
  obtain ⟨rfl, rfl, rfl⟩ := htied
  obtain rfl : valueA = valueB := hvalue
  obtain rfl : fieldA = fieldB := ha.ofField.trans hb.ofField.symm
  obtain rfl : sourceA = sourceB := oneSource _ _
  rfl

-- ============================================================ the resolver

/-- The record of candidates that were accepted. -/
def resolved (field : MetadataField) (ruleset : MetadataRuleset)
    (candidates : List MetadataCandidate) : ResolutionRecord :=
  let sorted := sortBy (candidateLess ruleset) candidates
  let conflict := sorted.any fun candidate =>
    sorted.head?.any fun selected =>
      !metadataValuesEqual candidate.value selected.value
  { field := field
    selectedValue := sorted.head?.map (·.value)
    selectedSource := sorted.head?.map (·.source)
    ruleId := (sorted.head?.map (·.extractionRule)).getD []
    ruleVersion := ruleset.version
    candidates := sorted
    conflict := conflict
    reason :=
      if sorted.isEmpty then text "no candidates"
      else if conflict then
        text ("multiple distinct values; canonical tie-break selected "
          ++ "the first candidate")
      else text "single canonical value" }

/-- What `Resolve` accepts. -/
structure Accepts (field : MetadataField) (ruleset : MetadataRuleset)
    (candidates : List MetadataCandidate) : Prop where
  valid : validateMetadataRuleset ruleset = .ok ()
  each : ∀ candidate ∈ candidates, isResolvable field ruleset candidate = true

/-- Candidates that are accepted are resolved. -/
theorem resolve_accepts (h : Accepts field ruleset candidates) :
    resolve field candidates ruleset = .ok (resolved field ruleset candidates) := by
  have heach : candidates.any (!isResolvable field ruleset ·) = false := by
    rw [List.any_eq_false]
    intro candidate hmem
    rw [h.each candidate hmem]
    exact Bool.false_ne_true
  unfold resolve resolved
  rw [h.valid]
  simp only [heach]
  cases sortBy (candidateLess ruleset) candidates with
  | nil => rfl
  | cons selected rest => simp [pure, Except.pure, bind, Except.bind]

/-- Only candidates that are accepted are. -/
theorem resolve_ok (h : resolve field candidates ruleset = .ok resolution) :
    Accepts field ruleset candidates
      ∧ resolution = resolved field ruleset candidates := by
  suffices haccepts : Accepts field ruleset candidates by
    rw [resolve_accepts haccepts] at h
    exact ⟨haccepts, (Except.ok.inj h).symm⟩
  unfold resolve at h
  cases hruleset : validateMetadataRuleset ruleset with
  | error e =>
      rw [hruleset] at h
      cases h
  | ok u =>
      rw [hruleset] at h
      refine ⟨hruleset, fun candidate hmem => ?_⟩
      by_contra hbad
      have hany : candidates.any (!isResolvable field ruleset ·) = true :=
        List.any_eq_true.2 ⟨candidate, hmem, by simpa using hbad⟩
      simp only [hany, bind, Except.bind, if_true] at h
      cases h

-- ======================================================== order of the input

/-- Candidates of one asset and rule, from one place in it, have one value. -/
def Untied (candidates : List MetadataCandidate) : Prop :=
  ∀ a ∈ candidates, ∀ b ∈ candidates, Tied a b → a.value = b.value

/-- The comparison tells accepted candidates apart exactly if no two are
tied. -/
theorem Accepts.separates_iff (h : Accepts field ruleset candidates) :
    Separates (candidateLess ruleset) candidates ↔ Untied candidates := by
  constructor
  · intro hsep a ha b hb htied
    rw [hsep a ha b hb htied.candidateLess htied.symm.candidateLess]
  · intro huntied a ha b hb hab hba
    have htied := candidateLess_tied hab hba
    exact (isResolvable_iff.1 (h.each a ha)).eq_of_tied
      (isResolvable_iff.1 (h.each b hb)) htied (huntied a ha b hb htied)

/-- In which order the candidates come does not matter to whether they are
accepted. -/
theorem Accepts.perm {candidates' : List MetadataCandidate}
    (h : Accepts field ruleset candidates) (hperm : candidates'.Perm candidates) :
    Accepts field ruleset candidates' :=
  ⟨h.valid, fun candidate hmem => h.each candidate (hperm.subset hmem)⟩

/-- A list not accepted is an error, in whatever order. -/
theorem resolve_perm_error {candidates' : List MetadataCandidate}
    (h : ¬Accepts field ruleset candidates)
    (hperm : candidates'.Perm candidates) :
    resolve field candidates' ruleset = resolve field candidates ruleset := by
  unfold resolve
  cases hvalid : validateMetadataRuleset ruleset with
  | error e => rfl
  | ok u =>
      have hany : candidates.any (!isResolvable field ruleset ·) = true := by
        by_contra hnone
        refine h ⟨hvalid, fun candidate hmem => ?_⟩
        rw [Bool.not_eq_true, List.any_eq_false] at hnone
        simpa using hnone candidate hmem
      simp only [hperm.any_eq, hany, bind, Except.bind, if_true]

/-- Candidates that are accepted: only ties matter. -/
theorem Accepts.resolve_perm (h : Accepts field ruleset candidates) :
    (∀ candidates' : List MetadataCandidate, candidates'.Perm candidates →
        resolve field candidates' ruleset = resolve field candidates ruleset)
      ↔ Untied candidates := by
  rw [← h.separates_iff,
    ← sortBy_perm_iff (candidateLess_comparator ruleset)]
  refine forall₂_congr fun candidates' hperm => ?_
  rw [resolve_accepts h, resolve_accepts (h.perm hperm)]
  constructor
  · intro heq
    exact congrArg ResolutionRecord.candidates (Except.ok.inj heq)
  · intro heq
    rw [resolved, resolved, heq]

/-- What `Resolve` returns does not depend on the order of the candidates
exactly if the ruleset or a candidate is refused or no two candidates of
one asset and rule, from one place in it, have different values. -/
theorem resolve_perm_iff (field : MetadataField) (ruleset : MetadataRuleset)
    (candidates : List MetadataCandidate) :
    (∀ candidates' : List MetadataCandidate, candidates'.Perm candidates →
        resolve field candidates' ruleset = resolve field candidates ruleset)
      ↔ validateMetadataRuleset ruleset ≠ .ok ()
        ∨ (∃ candidate ∈ candidates,
          isResolvable field ruleset candidate = false)
        ∨ Untied candidates := by
  by_cases haccepts : Accepts field ruleset candidates
  · rw [haccepts.resolve_perm]
    constructor
    · exact fun h => .inr (.inr h)
    · rintro (hinvalid | ⟨candidate, hmem, hrefused⟩ | huntied)
      · exact absurd haccepts.valid hinvalid
      · rw [haccepts.each candidate hmem] at hrefused
        cases hrefused
      · exact huntied
  · refine iff_of_true (fun _ => resolve_perm_error haccepts) ?_
    by_contra hnone
    rw [not_or, not_or, not_not] at hnone
    refine haccepts ⟨hnone.1, fun candidate hmem => ?_⟩
    by_contra hrefused
    exact hnone.2.1 ⟨candidate, hmem, Bool.eq_false_iff.2 hrefused⟩

/-- A title stated twice in one place of a sidecar, as a list of
candidates may hold it. -/
def statedTitle (value : String) : MetadataCandidate where
  assetId := text "a"
  field := .title
  value := .string (text value)
  source := .googleTakeoutJson
  extractionRule := text "takeout.json.title.v1"
  evidence := text "photo.json#/title"

/-- Two values from one place: the first of the list is selected. -/
theorem resolve_order_matters :
    ¬∀ (field : MetadataField) (ruleset : MetadataRuleset)
      (candidates candidates' : List MetadataCandidate),
      candidates'.Perm candidates →
        resolve field candidates' ruleset = resolve field candidates ruleset := by
  intro h
  have haccepts : Accepts .title googleTakeoutMetadataRuleset
      [statedTitle "A", statedTitle "B"] := ⟨rfl, by decide⟩
  have huntied := haccepts.resolve_perm.1 fun candidates' hperm =>
    h _ _ _ candidates' hperm
  have hvalue := huntied _ List.mem_cons_self _
    (List.mem_cons_of_mem _ List.mem_cons_self) ⟨rfl, rfl, rfl⟩
  have htext : text "A" = text "B" := MetadataValue.string.inj hvalue
  exact absurd htext (by decide)

-- ============================================================== provenance

/-- The candidate a record of provenance is about. -/
def ProvenanceRecord.candidate (record : ProvenanceRecord) :
    MetadataCandidate where
  assetId := record.assetId
  field := record.field
  value := record.value
  source := record.source
  extractionRule := record.ruleId
  evidence := record.evidence

/-- Every candidate has a record, in its place. -/
theorem provenanceRecords_candidates (written : Bool) :
    (provenanceRecords resolution written candidates).map
      ProvenanceRecord.candidate = candidates := by
  induction candidates generalizing written with
  | nil => rfl
  | cons candidate rest ih => exact congrArg (candidate :: ·) (ih _)

/-- A record says that it is selected exactly if its candidate was. -/
private theorem provenanceRecord_outcome {isSelected : Bool} :
    (provenanceRecord resolution c isSelected).outcome = .selected
      ↔ isSelected = true := by
  cases isSelected <;> simp [provenanceRecord]

/-- Once one is written as selected, no other is. -/
theorem provenanceRecords_written :
    ∀ record ∈ provenanceRecords resolution true candidates,
      record.outcome ≠ .selected := by
  induction candidates with
  | nil => exact fun record hmem => absurd hmem List.not_mem_nil
  | cons candidate rest ih =>
      intro record hmem
      rcases List.mem_cons.1 hmem with rfl | hmem
      · exact fun h => absurd (provenanceRecord_outcome.1 h) Bool.false_ne_true
      · exact ih record hmem

/-- The first candidate with the selected value is written as selected,
and no other. -/
theorem provenanceRecords_selected
    (hfirst : candidates.find? resolution.selects = some c) :
    ∃ before after,
      provenanceRecords resolution false candidates
          = before ++ provenanceRecord resolution c true :: after
        ∧ (∀ record ∈ before, record.outcome ≠ .selected)
        ∧ ∀ record ∈ after, record.outcome ≠ .selected := by
  induction candidates with
  | nil => cases hfirst
  | cons candidate rest ih =>
      cases hselects : resolution.selects candidate with
      | true =>
          rw [List.find?_cons_of_pos hselects] at hfirst
          cases hfirst
          refine ⟨[], provenanceRecords resolution true rest, ?_, nofun,
            provenanceRecords_written⟩
          simp [provenanceRecords, hselects]
      | false =>
          rw [List.find?_cons_of_neg (by simp [hselects])] at hfirst
          obtain ⟨before, after, heq, hbefore, hafter⟩ := ih hfirst
          refine ⟨provenanceRecord resolution candidate false :: before, after,
            ?_, fun record hmem => ?_, hafter⟩
          · simp [provenanceRecords, hselects, heq]
          · rcases List.mem_cons.1 hmem with rfl | hmem
            · exact fun h =>
                absurd (provenanceRecord_outcome.1 h) Bool.false_ne_true
            · exact hbefore record hmem

-- ===================================================== what was selected

/-- A rule of an accepted ruleset has a name. -/
theorem checkRules_ok {chain rules : List MetadataRule}
    (h : checkRules chain rules = .ok ()) :
    ∀ rule ∈ rules, rule.id ≠ [] := by
  induction rules with
  | nil => exact fun rule hmem => absurd hmem List.not_mem_nil
  | cons rule rest ih =>
      rw [checkRules] at h
      split at h
      · cases h
      rename_i hid
      split at h
      · cases h
      intro other hmem
      rcases List.mem_cons.1 hmem with rfl | hmem
      · simpa using hid
      · exact ih h other hmem

/-- A ruleset that is valid has a version, and so has each rule an id. -/
theorem validateMetadataRuleset_ok
    (h : validateMetadataRuleset ruleset = .ok ()) :
    ruleset.version ≠ [] ∧ ∀ rule ∈ ruleset.chain, rule.id ≠ [] := by
  unfold validateMetadataRuleset at h
  split at h
  · cases h
  rename_i hversion
  simp only [Bool.or_eq_true, List.isEmpty_iff, not_or] at hversion
  exact ⟨hversion.1, checkRules_ok h⟩

/-- What `Resolve` makes of candidates there are. -/
structure Selection (field : MetadataField) (ruleset : MetadataRuleset)
    (candidates : List MetadataCandidate) (resolution : ResolutionRecord)
    (selected : MetadataCandidate) : Prop where
  ofField : resolution.field = field
  value : resolution.selectedValue = some selected.value
  source : resolution.selectedSource = some selected.source
  ruleId : resolution.ruleId = selected.extractionRule
  ruleVersion : resolution.ruleVersion = ruleset.version
  mem : selected ∈ candidates
  each : ∀ candidate ∈ candidates, Resolvable field ruleset candidate
  perm : resolution.candidates.Perm candidates
  head : resolution.candidates.head? = some selected
  first : ∀ candidate ∈ candidates,
    candidateLess ruleset candidate selected = false
  conflict : resolution.conflict = true
    ↔ ∃ candidate ∈ candidates, candidate.value ≠ selected.value
  reason : resolution.reason ≠ []

/-- A resolution of some candidates selects one. -/
theorem resolve_selection (hne : candidates ≠ [])
    (h : resolve field candidates ruleset = .ok resolution) :
    ∃ selected, Selection field ruleset candidates resolution selected := by
  obtain ⟨haccepts, rfl⟩ := resolve_ok h
  have hperm := perm_sortBy (candidateLess ruleset) candidates
  have hsorted := pairwise_sortBy (candidateLess_comparator ruleset) candidates
  have heach : ∀ candidate ∈ candidates, Resolvable field ruleset candidate :=
    fun candidate hmem => isResolvable_iff.1 (haccepts.each candidate hmem)
  cases hcases : sortBy (candidateLess ruleset) candidates with
  | nil =>
      rw [hcases] at hperm
      exact absurd hperm.symm.eq_nil hne
  | cons selected rest =>
      rw [hcases] at hperm hsorted
      have hself : candidateLess ruleset selected selected = false :=
        Tied.candidateLess ⟨rfl, rfl, rfl⟩
      have hmem : selected ∈ candidates := hperm.subset List.mem_cons_self
      refine ⟨selected, ?_⟩
      unfold resolved
      rw [hcases]
      refine ⟨rfl, rfl, rfl, rfl, rfl, hmem, heach, hperm, rfl,
        fun candidate hcandidate => ?_, ?_, ?_⟩
      · rcases List.mem_cons.1 (hperm.symm.subset hcandidate) with rfl | hrest
        · exact hself
        · exact (List.pairwise_cons.1 hsorted).1 candidate hrest
      · simp only [List.head?_cons, Option.any_some, List.any_eq_true,
          hperm.mem_iff, Bool.not_eq_true']
        refine exists_congr fun candidate => and_congr_right fun hcandidate => ?_
        rw [← Bool.not_eq_true,
          metadataValuesEqual_iff (heach candidate hcandidate).compatible]
      · dsimp only
        rw [if_neg (by simp)]
        split <;> decide

namespace Selection

variable {selected : MetadataCandidate}

/-- What a resolution selects has the rule and the value of the selected
candidate. -/
theorem selects_iff
    (h : Selection field ruleset candidates resolution selected)
    (hc : c ∈ candidates) :
    resolution.selects c = true
      ↔ c.extractionRule = selected.extractionRule
        ∧ c.value = selected.value := by
  unfold ResolutionRecord.selects
  rw [h.value, h.source]
  simp only [Bool.and_eq_true, beq_iff_eq, h.ruleId,
    metadataValuesEqual_iff (h.each c hc).compatible]
  exact ⟨fun hall => ⟨hall.1.2, hall.2⟩,
    fun hall => ⟨⟨trivial, hall.1⟩, hall.2⟩⟩

/-- A resolution by a valid ruleset is a valid record. -/
theorem valid (h : Selection field ruleset candidates resolution selected)
    (hruleset : validateMetadataRuleset ruleset = .ok ()) :
    validateResolutionRecord resolution = .ok () := by
  obtain ⟨hversion, hids⟩ := validateMetadataRuleset_ok hruleset
  have hselected := h.each selected h.mem
  have hrule : ∀ candidate ∈ candidates, candidate.extractionRule ≠ [] := by
    intro candidate hmem
    obtain ⟨rule, hrule, hid, -⟩ := (h.each candidate hmem).rule
    rw [← hid]
    exact hids rule hrule
  have hadmits : resolution.candidates.any (!resolution.admits ·) = false := by
    rw [List.any_eq_false]
    intro candidate hmem
    have hmem' := h.perm.subset hmem
    have hresolvable := h.each candidate hmem'
    have hfield : candidate.field = resolution.field :=
      hresolvable.ofField.trans h.ofField.symm
    have hcompatible := hresolvable.compatible
    rw [← hresolvable.ofField] at hcompatible
    simp [ResolutionRecord.admits, hfield ▸ hcompatible, hfield,
      hresolvable.assetId, hrule candidate hmem']
  have hcompatible := hselected.compatible
  unfold validateResolutionRecord
  simp [h.value, h.source, h.ruleId, h.ruleVersion, h.ofField, hadmits,
    hcompatible, hversion, h.reason, hrule selected h.mem]

/-- The first candidate provenance finds is the one selected. -/
theorem find?_selects
    (h : Selection field ruleset candidates resolution selected) :
    (sortBy placeLess resolution.candidates).find? resolution.selects
      = some selected := by
  have hperm := (perm_sortBy placeLess resolution.candidates).trans h.perm
  have hsorted := pairwise_sortBy placeLess_comparator resolution.candidates
  generalize sortBy placeLess resolution.candidates = sorted at hperm hsorted ⊢
  have hselected : resolution.selects selected = true :=
    (h.selects_iff h.mem).2 ⟨rfl, rfl⟩
  cases hfound : sorted.find? resolution.selects with
  | none =>
      have hnone := List.find?_eq_none.1 hfound selected
        (hperm.symm.subset h.mem)
      exact absurd hselected hnone
  | some c =>
      obtain ⟨hc, before, after, rfl, hbefore⟩ :=
        List.find?_eq_some_iff_append.1 hfound
      have hmem : c ∈ candidates := hperm.subset (by simp)
      obtain ⟨hrule, hvalue⟩ := (h.selects_iff hmem).1 hc
      -- it does not come after the one selected, which has its rule
      have hafter := h.first c hmem
      rw [candidateLess_of_rule hrule] at hafter
      have hcases : selected = c ∨ placeLess selected c = false := by
        have hin := hperm.symm.subset h.mem
        rcases List.mem_append.1 hin with hin | hin
        · have hnot := hbefore selected hin
          rw [hselected] at hnot
          cases hnot
        · rcases List.mem_cons.1 hin with heq | hin
          · exact .inl heq
          · exact .inr ((List.pairwise_cons.1
              (List.pairwise_append.1 hsorted).2.1).1 selected hin)
      rcases hcases with rfl | hbefore
      · rfl
      · rw [(h.each c hmem).eq_of_tied (h.each selected h.mem)
          (placeLess_tied hafter hbefore) hvalue]

end Selection

/-- Provenance of a resolution: a record for each candidate, one of them
selected, and that is the candidate the resolver put first. -/
theorem buildProvenance_resolve (hne : candidates ≠ [])
    (h : resolve field candidates ruleset = .ok resolution) :
    validateResolutionRecord resolution = .ok ()
      ∧ ∃ selected records, resolution.candidates.head? = some selected
        ∧ resolution.selectedValue = some selected.value
        ∧ buildProvenance resolution = .ok records
        ∧ (records.map ProvenanceRecord.candidate).Perm candidates
        ∧ (∃ before record after, records = before ++ record :: after
          ∧ record.outcome = .selected ∧ record.candidate = selected
          ∧ ∀ other ∈ before ++ after, other.outcome = .rejected)
        ∧ (resolution.conflict = true
          ↔ ∃ a ∈ candidates, ∃ b ∈ candidates,
            metadataValuesEqual a.value b.value = false) := by
  obtain ⟨selected, hselection⟩ := resolve_selection hne h
  have hvalid := hselection.valid (resolve_ok h).1.valid
  obtain ⟨before, after, hrecords, hbefore, hafter⟩ :=
    provenanceRecords_selected hselection.find?_selects
  have hrejected : ∀ outcome : ProvenanceOutcome, outcome ≠ .selected →
      outcome = .rejected := by
    intro outcome houtcome
    cases outcome with
    | selected => exact absurd rfl houtcome
    | rejected => rfl
  refine ⟨hvalid, selected, _, hselection.head, hselection.value, ?_, ?_,
    ⟨before, _, after, hrecords, rfl, rfl, fun other hmem => ?_⟩, ?_⟩
  · unfold buildProvenance
    rw [hvalid]
    rfl
  · rw [provenanceRecords_candidates]
    exact (perm_sortBy _ _).trans hselection.perm
  · rcases List.mem_append.1 hmem with hmem | hmem
    · exact hrejected _ (hbefore other hmem)
    · exact hrejected _ (hafter other hmem)
  · rw [hselection.conflict]
    constructor
    · rintro ⟨a, ha, hne⟩
      refine ⟨a, ha, selected, hselection.mem, ?_⟩
      rw [← Bool.not_eq_true,
        metadataValuesEqual_iff (hselection.each a ha).compatible]
      exact hne
    · rintro ⟨a, ha, b, hb, hne⟩
      rw [← Bool.not_eq_true,
        metadataValuesEqual_iff (hselection.each a ha).compatible] at hne
      by_cases hvalue : a.value = selected.value
      · exact ⟨b, hb, fun hb' => hne (hvalue.trans hb'.symm)⟩
      · exact ⟨a, ha, hvalue⟩

/-- Two titles are in conflict, and both have a record. -/
theorem buildProvenance_resolve_two :
    ∃ resolution records,
      resolve .title [statedTitle "B", statedTitle "A"]
          googleTakeoutMetadataRuleset = .ok resolution
        ∧ resolution.conflict = true
        ∧ validateResolutionRecord resolution = .ok ()
        ∧ buildProvenance resolution = .ok records
        ∧ (records.map ProvenanceRecord.candidate).Perm
          [statedTitle "B", statedTitle "A"] := by
  obtain ⟨resolution, hresolution⟩ : ∃ resolution,
      resolve .title [statedTitle "B", statedTitle "A"]
        googleTakeoutMetadataRuleset = .ok resolution := ⟨_, rfl⟩
  obtain ⟨hvalid, selected, records, -, -, hrecords, hperm, -, hconflict⟩ :=
    buildProvenance_resolve (List.cons_ne_nil _ _) hresolution
  refine ⟨resolution, records, hresolution, hconflict.2 ?_, hvalid, hrecords,
    hperm⟩
  refine ⟨statedTitle "A", by simp, statedTitle "B", by simp, ?_⟩
  have htext : text "A" ≠ text "B" := by decide
  exact beq_false_of_ne htext

end PhotoBridge.Takeout
