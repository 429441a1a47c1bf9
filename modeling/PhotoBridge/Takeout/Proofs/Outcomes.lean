/-
`AddRelationErrorsAndCandidates` adds the outcomes of the assets and
nothing else, in an order that is the hash maps' (`outcomes_agree`).

Each of its loops goes through a table of the assets by their keys, so it
goes through the assets (Lib/Grouping.lean); what it says of one of them
is read off what the tables hold for its key. The prefixes of media keys
are a table too, and what it holds for the key of a sidecar are the media
files its name may be cut from (`prefixes_perm`).
-/
import PhotoBridge.Lib.Grouping
import PhotoBridge.Takeout.Proofs.Keys

namespace PhotoBridge.Takeout

open Grouping

-- ================================================================ results

section Results

variable {a a' b b' : TakeoutParseResult} {parts parts' : List TakeoutParseResult}
  {α : Type} {l : List α} {f g : α → TakeoutParseResult}

/-- Results that differ in the order of their parts only. -/
structure Agree (a b : TakeoutParseResult) : Prop where
  assets : a.assets.Perm b.assets
  candidates : a.candidates.Perm b.candidates
  relations : a.relations.Perm b.relations
  errors : a.errors.Perm b.errors

/-- A result agrees with itself. -/
theorem Agree.rfl : Agree a a := ⟨.refl _, .refl _, .refl _, .refl _⟩

/-- Agreement goes both ways. -/
theorem Agree.symm (h : Agree a b) : Agree b a :=
  ⟨h.assets.symm, h.candidates.symm, h.relations.symm, h.errors.symm⟩

/-- Agreement in two steps. -/
theorem Agree.trans {c : TakeoutParseResult} (h : Agree a b) (h' : Agree b c) :
    Agree a c :=
  ⟨h.assets.trans h'.assets, h.candidates.trans h'.candidates,
    h.relations.trans h'.relations, h.errors.trans h'.errors⟩

/-- Results that agree, put together. -/
theorem Agree.append (h : Agree a a') (h' : Agree b b') :
    Agree (a ++ b) (a' ++ b') :=
  ⟨h.assets.append h'.assets, h.candidates.append h'.candidates,
    h.relations.append h'.relations, h.errors.append h'.errors⟩

/-- In which order two results are put together does not matter. -/
private theorem agree_append_comm : Agree (a ++ b) (b ++ a) :=
  ⟨List.perm_append_comm, List.perm_append_comm, List.perm_append_comm,
    List.perm_append_comm⟩

/-- Putting results together is associative. -/
private theorem append_assoc' (a b c : TakeoutParseResult) :
    a ++ b ++ c = a ++ (b ++ c) := by
  show TakeoutParseResult.mk _ _ _ _ = TakeoutParseResult.mk _ _ _ _
  congr 1 <;> exact List.append_assoc _ _ _

/-- Nothing before a result. -/
private theorem empty_append (a : TakeoutParseResult) : {} ++ a = a := rfl

/-- Nothing after a result. -/
private theorem append_empty (a : TakeoutParseResult) : a ++ {} = a := by
  show TakeoutParseResult.mk _ _ _ _ = a
  congr 1 <;> exact List.append_nil _

/-- The first part is gathered first. -/
theorem gather_cons (a : TakeoutParseResult) (parts : List TakeoutParseResult) :
    gather (a :: parts) = a ++ gather parts := rfl

/-- One part alone. -/
private theorem gather_singleton (a : TakeoutParseResult) : gather [a] = a :=
  append_empty a

/-- Two lists of parts. -/
theorem gather_append :
    gather (parts ++ parts') = gather parts ++ gather parts' := by
  induction parts with
  | nil => rfl
  | cons part rest ih =>
      rw [List.cons_append, gather_cons, gather_cons, ih, append_assoc']

/-- Parts of parts. -/
theorem gather_flatMap (f : α → List TakeoutParseResult) :
    gather (l.flatMap f) = gather (l.map fun a => gather (f a)) := by
  induction l with
  | nil => rfl
  | cons a rest ih =>
      rw [List.flatMap_cons, gather_append, ih, List.map_cons, gather_cons]

/-- Parts that are passed over count as nothing. -/
theorem gather_filter (keep : α → Bool) :
    gather ((l.filter keep).map f)
      = gather (l.map fun a => if keep a then f a else {}) := by
  induction l with
  | nil => rfl
  | cons a rest ih =>
      rw [List.map_cons, gather_cons, ← ih]
      by_cases hkeep : keep a = true
      · rw [List.filter_cons_of_pos hkeep, if_pos hkeep, List.map_cons,
          gather_cons]
      · rw [List.filter_cons_of_neg hkeep, if_neg hkeep]
        rfl

/-- Nothing, over and over. -/
private theorem gather_empty (l : List α) :
    gather (l.map fun _ => ({} : TakeoutParseResult)) = {} := by
  induction l with
  | nil => rfl
  | cons a rest ih => rw [List.map_cons, gather_cons, ih, empty_append]

/-- In which order the parts are gathered does not matter. -/
theorem gather_perm (h : parts.Perm parts') :
    Agree (gather parts) (gather parts') := by
  induction h with
  | nil => exact .rfl
  | cons part _ ih => exact .append .rfl ih
  | swap a b rest =>
      rw [gather_cons, gather_cons, gather_cons, gather_cons, ← append_assoc',
        ← append_assoc']
      exact agree_append_comm.append .rfl
  | trans _ _ ih ih' => exact ih.trans ih'

/-- Parts that agree are gathered into results that agree. -/
theorem gather_congr (h : ∀ a ∈ l, Agree (f a) (g a)) :
    Agree (gather (l.map f)) (gather (l.map g)) := by
  induction l with
  | nil => exact .rfl
  | cons a rest ih =>
      exact (h a List.mem_cons_self).append
        (ih fun b hb => h b (List.mem_cons_of_mem _ hb))

/-- Gathering two parts of each is gathering one of each, and then the
other. -/
theorem gather_map_append :
    Agree (gather (l.map fun a => f a ++ g a))
      (gather (l.map f) ++ gather (l.map g)) := by
  induction l with
  | nil => exact .rfl
  | cons a rest ih =>
      rw [List.map_cons, List.map_cons, List.map_cons, gather_cons, gather_cons,
        gather_cons, append_assoc', append_assoc']
      refine .append .rfl ((Agree.append .rfl ih).trans ?_)
      rw [← append_assoc', ← append_assoc']
      exact agree_append_comm.append .rfl

/-- Both halves of a list, each with what is said of it. -/
theorem gather_halves (keep : α → Bool) :
    Agree (gather (l.map fun a => if keep a then f a else g a))
      (gather ((l.filter keep).map f) ++ gather ((l.filter (!keep ·)).map g)) := by
  rw [gather_filter, gather_filter]
  refine Agree.trans ?_ gather_map_append
  refine gather_congr fun a _ => ?_
  cases keep a with
  | true =>
      simp only [Bool.not_true, Bool.false_eq_true, if_false, if_true]
      rw [append_empty]
      exact .rfl
  | false => exact .rfl

end Results

-- ================================================================= tables

section Tables

variable {assets : List PhysicalAsset} {groups mediaGroups : AssetGroups}

/-- `append` of the source is that of the grouping library. -/
private theorem append_eq (groups : AssetGroups) (key : Bytes)
    (added : List PhysicalAsset) :
    groups.append key added = Grouping.append groups key added := by
  unfold AssetGroups.append Grouping.append
  simp only [beq_eq_decide]

/-- The table of the assets that pass a test has each of them under its
key. -/
theorem groupByKey_tabulates (test : PhysicalAsset → Bool)
    (assets : List PhysicalAsset) :
    Tabulates (groupByKey test assets)
      (byKey basenameKey (assets.filter test)) := by
  have hfold : groupByKey test assets
      = ((assets.filter test).map fun asset => (basenameKey asset, [asset])).foldl
          (fun groups entry => Grouping.append groups entry.1 entry.2) [] := by
    rw [List.foldl_map, groupByKey]
    simp only [append_eq]
  have hvalues : byKey basenameKey (assets.filter test) = fun key =>
      [] ++ (((assets.filter test).map fun asset =>
        (basenameKey asset, [asset])).filter (·.1 = key)).flatMap (·.2) := by
    funext key
    rw [List.nil_append, List.filter_map, List.flatMap_map]
    simp only [Function.comp_def, List.flatMap_singleton']
  rw [hfold, hvalues]
  refine Tabulates.nil.foldl fun entry hentry => ?_
  obtain ⟨asset, -, rfl⟩ := List.mem_map.1 hentry
  exact List.cons_ne_nil _ _

/-- The lengths that cut a key to a given prefix: at most one. -/
theorem filter_take_eq {key cut : Bytes} {lengths : List Nat}
    (hnodup : lengths.Nodup) (hle : ∀ length ∈ lengths, length ≤ key.length) :
    lengths.filter (fun length => key.take length = cut)
      = if ∃ length ∈ lengths, key.take length = cut then [cut.length]
        else [] := by
  split
  · next hex =>
    obtain ⟨length, hmem, hcut⟩ := hex
    have hlength : ∀ n ∈ lengths, key.take n = cut ↔ n = cut.length := by
      intro n hn
      constructor
      · intro heq
        rw [← heq, List.length_take, Nat.min_eq_left (hle n hn)]
      · intro heq
        have hsame : cut.length = length := by
          rw [← hcut, List.length_take, Nat.min_eq_left (hle length hmem)]
        rw [heq, hsame, hcut]
    rw [List.filter_congr fun n hn => decide_eq_decide.2 (hlength n hn)]
    have hin : cut.length ∈ lengths := by
      rw [← (hlength length hmem).1 hcut]
      exact hmem
    rw [List.filter_eq, List.count_eq_one_of_mem hnodup hin]
    rfl
  · next hnone =>
    rw [List.filter_eq_nil_iff]
    intro length hmem hcut
    exact hnone ⟨length, hmem, by simpa using hcut⟩

/-- What a group of media is appended to. -/
def prefixEntries (groups : AssetGroups) : List (Bytes × List PhysicalAsset) :=
  groups.flatMap fun group =>
    (prefixLengths group.1).map fun length => (group.1.take length, group.2)

/-- The table of prefixes has every group under each of its prefixes. -/
theorem mediaByPrefix_tabulates (hgroups : ∀ group ∈ groups, group.2 ≠ []) :
    Tabulates (mediaByPrefix groups) fun key =>
      ((prefixEntries groups).filter (·.1 = key)).flatMap (·.2) := by
  have hfold : mediaByPrefix groups
      = (prefixEntries groups).foldl
          (fun groups entry => Grouping.append groups entry.1 entry.2) [] := by
    unfold mediaByPrefix prefixEntries
    rw [List.foldl_flatMap]
    simp only [List.foldl_map, append_eq]
  rw [hfold]
  refine Tabulates.nil.foldl fun entry hentry => ?_
  obtain ⟨group, hgroup, hentry⟩ := List.mem_flatMap.1 hentry
  obtain ⟨length, -, rfl⟩ := List.mem_map.1 hentry
  exact hgroups group hgroup

/-- Of a group, a prefix finds all or nothing. -/
theorem prefixEntries_group (key cut : Bytes) (media : List PhysicalAsset) :
    (((prefixLengths key).map fun length => (key.take length, media)).filter
        (·.1 = cut)).flatMap (·.2)
      = if ∃ length ∈ prefixLengths key, key.take length = cut then media
        else [] := by
  have hnodup : (prefixLengths key).Nodup :=
    List.Nodup.filter _ List.nodup_range
  have hle : ∀ length ∈ prefixLengths key, length ≤ key.length := by
    intro length hmem
    have hrange := List.mem_range.1 (List.mem_filter.1 hmem).1
    omega
  rw [List.filter_map, List.flatMap_map]
  simp only [Function.comp_def]
  rw [filter_take_eq hnodup hle]
  split
  · rw [List.flatMap_singleton]
  · rfl

/-- What the prefixes hold for a sidecar's key. -/
theorem prefixes_perm (h : Tabulates mediaGroups
      (byKey basenameKey (assets.filter isMedia))) (sidecar : PhysicalAsset) :
    (((prefixEntries mediaGroups).filter
        (·.1 = basenameKey sidecar)).flatMap (·.2)).Perm
      (cutFrom assets sidecar) := by
  have hgroup : ∀ group ∈ mediaGroups,
      (((prefixLengths group.1).map fun length =>
          (group.1.take length, group.2)).filter
            (·.1 = basenameKey sidecar)).flatMap (·.2)
        = group.2.filter (isCutFrom sidecar) := by
    intro group hmem
    have hkey : ∀ media ∈ group.2, basenameKey media = group.1 := by
      intro media hmedia
      rw [h.entry group hmem] at hmedia
      simpa using (List.mem_filter.1 hmedia).2
    have hcut : ∀ media ∈ group.2, (isCutFrom sidecar media = true
        ↔ ∃ length ∈ prefixLengths group.1,
          group.1.take length = basenameKey sidecar) := by
      intro media hmedia
      rw [← mem_prefixes_iff, hkey media hmedia]
    rw [prefixEntries_group]
    split
    · next hex =>
      exact (List.filter_eq_self.2 fun media hmedia =>
        (hcut media hmedia).2 hex).symm
    · next hnone =>
      exact (List.filter_eq_nil_iff.2 fun media hmedia hin =>
        hnone ((hcut media hmedia).1 hin)).symm
  have hall : ((prefixEntries mediaGroups).filter
        (·.1 = basenameKey sidecar)).flatMap (·.2)
      = (mediaGroups.flatMap (·.2)).filter (isCutFrom sidecar) := by
    rw [prefixEntries, List.filter_flatMap, List.flatMap_assoc,
      List.filter_flatMap]
    exact List.flatMap_congr hgroup
  rw [hall]
  exact h.flatMap_perm.filter _

end Tables

-- =============================================================== singletons

section Single

variable {α : Type} {xs ys : List α} {a : α}

/-- There is a single element exactly in a list of one. -/
theorem single_eq_some : single xs = some a ↔ xs = [a] := by
  unfold single
  split
  · simp
  · next hnot => exact iff_of_false nofun fun heq => hnot a heq

/-- Which element is the single one does not depend on the order. -/
theorem single_perm (h : xs.Perm ys) : single xs = single ys := by
  cases hsingle : single ys with
  | some a =>
      rw [single_eq_some] at hsingle ⊢
      rw [hsingle] at h
      exact List.perm_singleton.1 h
  | none =>
      refine Option.eq_none_iff_forall_ne_some.2 fun a hsome => ?_
      rw [single_eq_some.1 hsome] at h
      rw [← List.singleton_perm.1 h] at hsingle
      cases hsingle

end Single

-- ================================================================ the media

section Media

variable {search : PairSearch} {media : List PhysicalAsset}

/-- A search relates a group that has a first and a second. -/
theorem relates_eq (search : PairSearch) (media : List PhysicalAsset) :
    search.relates media = true
      ↔ search.firsts media ≠ [] ∧ search.seconds media ≠ [] := by
  simp [PairSearch.relates]

/-- There is a single pair. -/
def PairSearch.IsPair (search : PairSearch) (media : List PhysicalAsset) : Prop :=
  ∃ first second, search.firsts media = [first]
    ∧ search.seconds media = [second]

/-- A group that is no pair has an error for each of its files, or none. -/
theorem run_not_pair (h : ¬search.IsPair media) :
    search.run media
      = if search.relates media then
          gather (media.map fun asset =>
            addError asset.relativePath search.code (text search.message))
        else {} := by
  unfold PairSearch.run
  split
  · next first second hfirsts hseconds =>
    exact absurd ⟨first, second, hfirsts, hseconds⟩ h
  · simp only [relates_eq]

/-- The same for one of its files. -/
theorem outcome_not_pair (h : ¬search.IsPair media) (asset : PhysicalAsset) :
    search.outcome media asset
      = if search.relates media then
          addError asset.relativePath search.code (text search.message)
        else {} := by
  unfold PairSearch.outcome
  split
  · next hfirsts hseconds =>
    exact absurd ⟨_, _, single_eq_some.1 hfirsts, single_eq_some.1 hseconds⟩ h
  · rfl

/-- A pair is reported as one relation, with its first. -/
theorem outcome_pair {first second : PhysicalAsset}
    (hfirsts : search.firsts media = [first])
    (hseconds : search.seconds media = [second]) (asset : PhysicalAsset) :
    search.outcome media asset
      = if search.first asset then
          { relations := [search.relate asset second] }
        else {} := by
  unfold PairSearch.outcome
  rw [single_eq_some.2 hfirsts, single_eq_some.2 hseconds]

/-- A search says what its outcomes say. -/
theorem run_eq (search : PairSearch) (media : List PhysicalAsset) :
    search.run media = gather (media.map (search.outcome media)) := by
  by_cases hpair : search.IsPair media
  · obtain ⟨first, second, hfirsts, hseconds⟩ := hpair
    have houtcome : search.outcome media = fun asset =>
        if search.first asset then
          { relations := [search.relate asset second] } else {} :=
      funext (outcome_pair hfirsts hseconds)
    have hfilter : media.filter search.first = [first] := hfirsts
    rw [houtcome, ← gather_filter, hfilter, PairSearch.run, hfirsts, hseconds]
    exact (gather_singleton _).symm
  · have houtcome : search.outcome media = fun asset =>
        if search.relates media then
          addError asset.relativePath search.code (text search.message)
        else {} := funext (outcome_not_pair hpair)
    rw [run_not_pair hpair, houtcome]
    by_cases hrelates : search.relates media = true
    · simp only [if_pos hrelates]
    · simp only [if_neg hrelates]
      exact (gather_empty media).symm

end Media

-- =============================================================== the loops

section Loops

variable {order : HashOrder} {assets : List PhysicalAsset}
  {mediaGroups sidecarGroups prefixes : AssetGroups}

/-- The tables hold the assets by their keys. -/
structure Tables (assets : List PhysicalAsset)
    (mediaGroups sidecarGroups : AssetGroups) : Prop where
  media : Tabulates mediaGroups (byKey basenameKey (assets.filter isMedia))
  sidecars : Tabulates sidecarGroups
    (byKey basenameKey (assets.filter (isSidecar ·.kind)))

/-- The tables hold what they should, whatever order they are iterated in.
-/
theorem tables_iterate (order : HashOrder) (assets : List PhysicalAsset) :
    Tables assets (order.iterate (groupByKey isMedia assets))
      (order.iterate (groupByKey (isSidecar ·.kind) assets)) where
  media := (groupByKey_tabulates _ _).perm (order.perm _)
  sidecars := (groupByKey_tabulates _ _).perm (order.perm _)

namespace Tables

/-- What is found under a key is the media files that have it. -/
theorem find_media (h : Tables assets mediaGroups sidecarGroups) (key : Bytes) :
    mediaGroups.find key
      = if (mediaWith assets key).isEmpty then none
        else some (mediaWith assets key) :=
  h.media.find? key

/-- The same of sidecars. -/
theorem find_sidecars (h : Tables assets mediaGroups sidecarGroups)
    (key : Bytes) :
    sidecarGroups.find key
      = if (sidecarsWith assets key).isEmpty then none
        else some (sidecarsWith assets key) :=
  h.sidecars.find? key

/-- What is found under a prefix is the media files whose names are cut
from there. -/
theorem find_prefix (h : Tables assets mediaGroups sidecarGroups)
    (sidecar : PhysicalAsset) :
    ∃ found, found.Perm (cutFrom assets sidecar)
      ∧ (mediaByPrefix mediaGroups).find (basenameKey sidecar)
        = if found.isEmpty then none else some found :=
  ⟨_, prefixes_perm h.media sidecar,
    (mediaByPrefix_tabulates fun _ hmem => h.media.ne_nil hmem).find? _⟩

/-- The loop over the media groups. -/
theorem relateMedia_agree (h : Tables assets mediaGroups sidecarGroups) :
    Agree (gather (mediaGroups.map fun group => relateMedia group.2))
      (gather ((assets.filter isMedia).map fun media =>
        rawJpegSearch.outcome (mediaWith assets (basenameKey media)) media
          ++ livePhotoSearch.outcome (mediaWith assets (basenameKey media))
            media)) := by
  have hgroup : ∀ group ∈ mediaGroups, Agree (relateMedia group.2)
      (gather (group.2.map fun media => rawJpegSearch.outcome group.2 media
        ++ livePhotoSearch.outcome group.2 media)) := by
    intro group _
    rw [relateMedia, run_eq, run_eq]
    exact gather_map_append.symm
  refine (gather_congr hgroup).trans ?_
  rw [← gather_flatMap]
  exact gather_perm (h.media.map_perm fun _ group media =>
    rawJpegSearch.outcome group media ++ livePhotoSearch.outcome group media)

/-- A sidecar without media of its key. -/
theorem unmatchedSidecar_eq (h : Tables assets mediaGroups sidecarGroups)
    (sidecar : PhysicalAsset) :
    unmatchedSidecar (mediaByPrefix mediaGroups) (basenameKey sidecar) sidecar
      = unmatchedOutcome assets sidecar := by
  obtain ⟨found, hperm, hfind⟩ := h.find_prefix sidecar
  have hempty : found.isEmpty = (cutFrom assets sidecar).isEmpty := hperm.isEmpty_eq
  unfold unmatchedSidecar unmatchedOutcome
  rw [hfind, ← single_perm hperm, ← hempty]
  match found with
  | [] => rfl
  | [media] => rfl
  | first :: second :: rest => rfl

/-- One round of the loop over the sidecars. -/
theorem relateSidecar_eq (h : Tables assets mediaGroups sidecarGroups)
    {sidecar : PhysicalAsset} :
    relateSidecar mediaGroups (mediaByPrefix mediaGroups) (basenameKey sidecar)
        (sidecarsWith assets (basenameKey sidecar)) sidecar
      = sidecarOutcome assets sidecar := by
  unfold relateSidecar sidecarOutcome
  rw [h.find_media, h.unmatchedSidecar_eq]
  generalize mediaWith assets (basenameKey sidecar) = media
  generalize sidecarsWith assets (basenameKey sidecar) = sidecars
  match media, sidecars with
  | [], sidecars => rfl
  | [media], [] => rfl
  | [media], [other] => rfl
  | [media], first :: second :: rest => rfl
  | first :: second :: rest, sidecars => rfl

/-- The loop over the sidecar groups. -/
theorem relateSidecars_agree (h : Tables assets mediaGroups sidecarGroups) :
    Agree (gather (sidecarGroups.map fun group => gather (group.2.map
        (relateSidecar mediaGroups (mediaByPrefix mediaGroups) group.1 group.2))))
      (gather ((assets.filter (isSidecar ·.kind)).map (sidecarOutcome assets))) := by
  rw [← gather_flatMap fun group : Bytes × List PhysicalAsset => group.2.map
    (relateSidecar mediaGroups (mediaByPrefix mediaGroups) group.1 group.2)]
  have hperm := h.sidecars.map_perm fun key sidecars sidecar =>
    relateSidecar mediaGroups (mediaByPrefix mediaGroups) key sidecars sidecar
  have hround : (assets.filter (isSidecar ·.kind)).map (sidecarOutcome assets)
      = (assets.filter (isSidecar ·.kind)).map fun sidecar =>
        relateSidecar mediaGroups (mediaByPrefix mediaGroups)
          (basenameKey sidecar) (byKey basenameKey
            (assets.filter (isSidecar ·.kind)) (basenameKey sidecar)) sidecar :=
    List.map_congr_left fun sidecar _ => h.relateSidecar_eq.symm
  rw [hround]
  exact gather_perm hperm

/-- The keys of media files related to each other. -/
theorem mem_relationKeys (h : Tables assets mediaGroups sidecarGroups)
    (key : Bytes) :
    (mediaRelationKeys mediaGroups).contains key
      = (rawJpegSearch.relates (mediaWith assets key)
        || livePhotoSearch.relates (mediaWith assets key)) := by
  have hnil : ∀ search : PairSearch, search.relates [] = false := fun _ => rfl
  rw [Bool.eq_iff_iff, List.contains_iff_mem]
  unfold mediaRelationKeys
  rw [List.mem_map]
  constructor
  · rintro ⟨group, hgroup, rfl⟩
    obtain ⟨hmem, hrelates⟩ := List.mem_filter.1 hgroup
    rwa [h.media.entry group hmem] at hrelates
  · intro hrelates
    have hne : mediaWith assets key ≠ [] := by
      intro hempty
      rw [hempty, hnil, hnil] at hrelates
      cases hrelates
    obtain ⟨group, hmem, rfl⟩ := List.mem_map.1 ((h.media.keys key).2 hne)
    refine ⟨group, List.mem_filter.2 ⟨hmem, ?_⟩, rfl⟩
    rw [h.media.entry group hmem]
    exact hrelates

/-- What a sidecar puts among the keys of media files with a sidecar whose
name is cut short. -/
theorem weakKey_eq_some (h : Tables assets mediaGroups sidecarGroups)
    (sidecar : PhysicalAsset) (key : Bytes) :
    (match mediaGroups.find (basenameKey sidecar),
        (mediaByPrefix mediaGroups).find (basenameKey sidecar) with
      | none, some [media] => some (basenameKey media)
      | _, _ => none) = some key
      ↔ (mediaWith assets (basenameKey sidecar)).isEmpty = true
        ∧ ∃ media, single (cutFrom assets sidecar) = some media
          ∧ basenameKey media = key := by
  obtain ⟨found, hperm, hfind⟩ := h.find_prefix sidecar
  rw [hfind, h.find_media, ← single_perm hperm]
  cases hmedia : (mediaWith assets (basenameKey sidecar)).isEmpty with
  | false =>
      simp only [Bool.false_eq_true, if_false, false_and, iff_false]
      exact nofun
  | true =>
      match found with
      | [] => simp [single]
      | [media] => simp [single]
      | first :: second :: rest => simp [single]

/-- A name cut from a file's is cut from the names of all with its key. -/
theorem mem_cutFrom_of_key {sidecar media other : PhysicalAsset}
    (hmedia : media ∈ assets.filter isMedia)
    (hother : other ∈ cutFrom assets sidecar)
    (hkey : basenameKey other = basenameKey media) :
    media ∈ cutFrom assets sidecar := by
  obtain ⟨hdirectory, hstem⟩ := basenameKey_inj.1 hkey
  have hcut := (List.mem_filter.1 hother).2
  unfold isCutFrom at hcut
  rw [hdirectory, hstem] at hcut
  exact List.mem_filter.2 ⟨hmedia, hcut⟩

/-- A sidecar whose name is cut from one media file only, of the key of
this one, is cut from this one. -/
theorem single_cutFrom {sidecar media : PhysicalAsset}
    (hmedia : media ∈ assets.filter isMedia) :
    (∃ other, single (cutFrom assets sidecar) = some other
        ∧ basenameKey other = basenameKey media)
      ↔ single (cutFrom assets sidecar) = some media := by
  constructor
  · rintro ⟨other, hsingle, hkey⟩
    have hcut := single_eq_some.1 hsingle
    have hmem : other ∈ cutFrom assets sidecar := by
      rw [hcut]
      exact List.mem_singleton_self _
    have hin := mem_cutFrom_of_key hmedia hmem hkey
    rw [hcut, List.mem_singleton] at hin
    rw [hsingle, hin]
  · exact fun hsingle => ⟨media, hsingle, rfl⟩

/-- The keys of media files with a sidecar whose name is cut short. -/
theorem mem_weakKeys (h : Tables assets mediaGroups sidecarGroups)
    {media : PhysicalAsset} (hmedia : media ∈ assets.filter isMedia) :
    (weakSidecarKeys mediaGroups (mediaByPrefix mediaGroups)
        sidecarGroups).contains (basenameKey media)
      = hasWeakSidecar assets media := by
  rw [Bool.eq_iff_iff, List.contains_iff_mem]
  unfold weakSidecarKeys hasWeakSidecar
  rw [List.mem_filterMap, List.any_eq_true]
  simp only [Bool.and_eq_true, beq_iff_eq]
  constructor
  · rintro ⟨group, hgroup, hround⟩
    obtain ⟨sidecar, hsidecar⟩ :=
      List.exists_mem_of_ne_nil _ (h.sidecars.ne_nil hgroup)
    rw [h.sidecars.entry group hgroup] at hsidecar
    obtain ⟨hin, hkey⟩ := List.mem_filter.1 hsidecar
    obtain ⟨hassets, hkind⟩ := List.mem_filter.1 hin
    rw [← of_decide_eq_true hkey] at hround
    obtain ⟨hnone, hother⟩ := (h.weakKey_eq_some sidecar _).1 hround
    exact ⟨sidecar, hassets, ⟨hkind, hnone⟩, (single_cutFrom hmedia).1 hother⟩
  · rintro ⟨sidecar, hassets, ⟨hkind, hnone⟩, hsingle⟩
    have hin : sidecar ∈ byKey basenameKey (assets.filter (isSidecar ·.kind))
        (basenameKey sidecar) :=
      List.mem_filter.2 ⟨List.mem_filter.2 ⟨hassets, hkind⟩, by simp⟩
    obtain ⟨group, hgroup, hkey⟩ := List.mem_map.1
      ((h.sidecars.keys (basenameKey sidecar)).2 (List.ne_nil_of_mem hin))
    refine ⟨group, hgroup, ?_⟩
    rw [hkey]
    exact (h.weakKey_eq_some sidecar _).2
      ⟨hnone, (single_cutFrom hmedia).2 hsingle⟩

/-- What the last loop asks of a key. -/
theorem missing_eq (h : Tables assets mediaGroups sidecarGroups)
    {media : PhysicalAsset} (hmedia : media ∈ assets.filter isMedia) :
    ((sidecarGroups.find (basenameKey media)).isSome
        || (mediaRelationKeys mediaGroups).contains (basenameKey media)
        || (weakSidecarKeys mediaGroups (mediaByPrefix mediaGroups)
          sidecarGroups).contains (basenameKey media))
      = !isMissingSidecar assets media := by
  rw [h.mem_relationKeys, h.mem_weakKeys hmedia, h.find_sidecars]
  unfold isMissingSidecar
  cases (sidecarsWith assets (basenameKey media)).isEmpty <;>
    simp [Bool.or_assoc]

/-- Sidecars are missed file by file. -/
theorem missingSidecars_eq (media : List PhysicalAsset) :
    missingSidecars media = gather (media.map fun a => missingSidecars [a]) := by
  have hone : (fun asset : PhysicalAsset => missingSidecars [asset])
      = fun asset => addError asset.relativePath "missing_sidecar"
        (text ("media has no JSON or XMP sidecar with the same directory "
          ++ "and basename")) :=
    funext fun asset => gather_singleton _
  rw [hone]
  rfl

/-- The last loop. -/
theorem missing_agree (h : Tables assets mediaGroups sidecarGroups) :
    Agree (gather (mediaGroups.map fun group =>
        if (sidecarGroups.find group.1).isSome
            || (mediaRelationKeys mediaGroups).contains group.1
            || (weakSidecarKeys mediaGroups (mediaByPrefix mediaGroups)
              sidecarGroups).contains group.1 then {}
        else missingSidecars group.2))
      (gather ((assets.filter isMedia).map fun media =>
        if isMissingSidecar assets media then missingSidecars [media]
        else {})) := by
  let skips : Bytes → Bool := fun key => (sidecarGroups.find key).isSome
    || (mediaRelationKeys mediaGroups).contains key
    || (weakSidecarKeys mediaGroups (mediaByPrefix mediaGroups)
      sidecarGroups).contains key
  let round : Bytes → List PhysicalAsset → PhysicalAsset → TakeoutParseResult :=
    fun key _ media => if skips key then {} else missingSidecars [media]
  have hgroup : ∀ group ∈ mediaGroups, Agree
      (if skips group.1 then {} else missingSidecars group.2)
      (gather (group.2.map (round group.1 group.2))) := by
    intro group _
    by_cases hskips : skips group.1 = true
    · simp only [round, if_pos hskips]
      rw [gather_empty]
      exact .rfl
    · simp only [round, if_neg hskips]
      rw [missingSidecars_eq]
      exact .rfl
  refine (gather_congr hgroup).trans ?_
  rw [← gather_flatMap fun group : Bytes × List PhysicalAsset =>
    group.2.map (round group.1 group.2)]
  refine (gather_perm (h.media.map_perm round)).trans ?_
  refine gather_congr fun media hmedia => ?_
  have hskips : skips (basenameKey media) = !isMissingSidecar assets media :=
    h.missing_eq hmedia
  simp only [round, hskips]
  cases isMissingSidecar assets media <;> exact .rfl

end Tables

/-- Sidecars are not media files. -/
theorem filter_sidecars (assets : List PhysicalAsset) :
    (assets.filter (!isMedia ·)).filter (isSidecar ·.kind)
      = assets.filter (isSidecar ·.kind) := by
  rw [List.filter_filter]
  refine List.filter_congr fun asset _ => ?_
  unfold isMedia isSidecar
  cases asset.kind <;> rfl

/-- What is reported about the assets is what is reported about the media
files and about the sidecars. -/
theorem outcome_agree (assets : List PhysicalAsset) :
    Agree (gather (assets.map (outcome assets)))
      (gather ((assets.filter isMedia).map (mediaOutcome assets))
        ++ gather ((assets.filter (isSidecar ·.kind)).map
          (sidecarOutcome assets))) := by
  rw [← filter_sidecars,
    gather_filter fun asset : PhysicalAsset => isSidecar asset.kind]
  exact gather_halves isMedia

/-- What is added is what is said of the assets, in some order. -/
theorem outcomes_agree (order : HashOrder) (assets : List PhysicalAsset) :
    Agree (addRelationErrorsAndCandidates order assets)
      (gather (assets.map (outcome assets))) := by
  have htables := tables_iterate order assets
  unfold addRelationErrorsAndCandidates
  dsimp only
  refine ((htables.relateMedia_agree.append
    htables.relateSidecars_agree).append htables.missing_agree).trans ?_
  refine Agree.trans ?_ (outcome_agree assets).symm
  -- the two rounds of the media files are one
  rw [append_assoc']
  refine (Agree.append .rfl agree_append_comm).trans ?_
  rw [← append_assoc']
  exact gather_map_append.symm.append .rfl

end Loops

end PhotoBridge.Takeout
