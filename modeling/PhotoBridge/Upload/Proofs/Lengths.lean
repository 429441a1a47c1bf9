/-
How long the assigned names are. The limit of 255 bytes is checked on the
name asked for, not on the one assigned, which a number makes longer.

Which names the requests before one take can be said of the requests
alone (`Taken`, the least set closed under the loop over suffixes), and
the names a session has assigned are these (`mem_take_iff_taken`). So all
of a session's names fit exactly if every request leaves room for one
that is not taken (`Fits`).
-/
import PhotoBridge.Upload.Proofs.Assigned

namespace PhotoBridge.Upload

open Concurrent SharedConnection

-- ============================================================== lengths

/-- Most bytes in a name of a file. -/
def nameMax : Nat := 255

private theorem length_decimal_mono {m n : Nat} (h : m ≤ n) :
    (decimal m).length ≤ (decimal n).length := by
  induction n using Nat.strong_induction_on generalizing m with
  | _ n ih =>
      rw [decimal_eq m, decimal_eq n, List.length_append, List.length_append]
      by_cases hn : n < 10
      · rw [if_pos hn, if_pos (by omega)]
        exact Nat.le_refl _
      · rw [if_neg hn]
        by_cases hm : m < 10
        · rw [if_pos hm]
          simp
        · rw [if_neg hm]
          have hrest : (decimal (m / 10)).length ≤ (decimal (n / 10)).length :=
            ih (n / 10) (by omega) (Nat.div_le_div_right h)
          simpa using hrest

theorem length_withCollisionSuffix (value : Bytes) {k : Nat} (hk : k ≠ 1) :
    (withCollisionSuffix value k).length
      = value.length + 2 + (decimal k).length := by
  obtain ⟨front, back, hparted⟩ := exists_parted value
  have htext : (text "__").length = 2 := by decide
  rw [hparted.numbered k hk, hparted.whole]
  simp only [List.length_append, htext]
  omega

/-- A greater number makes no shorter name. -/
theorem length_withCollisionSuffix_mono (value : Bytes) {k k' : Nat}
    (hpos : 0 < k) (hle : k ≤ k') :
    (withCollisionSuffix value k).length
      ≤ (withCollisionSuffix value k').length := by
  by_cases hk : k = 1
  · by_cases hk' : k' = 1
    · rw [hk, hk']
    · rw [length_withCollisionSuffix value hk', hk]
      show value.length ≤ _
      omega
  · have hk' : k' ≠ 1 := by omega
    have hdigits := length_decimal_mono hle
    rw [length_withCollisionSuffix value hk,
      length_withCollisionSuffix value hk']
    omega

-- ========================================================= what is taken

/-- The requests before request `i` take the name: each of them takes the
first of its candidates that those before it do not. -/
inductive Taken (requests : List UploadFileRequest) : Nat → Bytes → Prop
  | takes {i j k : Nat} {request : UploadFileRequest} (hj : j < i)
      (hrequest : requests[j]? = some request) (hk : 0 < k)
      (before : ∀ l, 0 < l → l < k →
        Taken requests j (withCollisionSuffix request.originalFilename l)) :
      Taken requests i (withCollisionSuffix request.originalFilename k)

/-- Every request has a candidate that fits and is not taken. -/
def Fits (requests : List UploadFileRequest) : Prop :=
  ∀ i request, requests[i]? = some request →
    ∃ k, 0 < k ∧ (withCollisionSuffix request.originalFilename k).length ≤ nameMax
      ∧ ¬Taken requests i (withCollisionSuffix request.originalFilename k)

/-- Each name is the first free candidate of its request. -/
structure Chosen (requests : List UploadFileRequest) (names : List Bytes) :
    Prop where
  length : names.length = requests.length
  found : ∀ i (hr : i < requests.length) (hn : i < names.length),
    ∃ k, FirstFree (names.take i) requests[i].originalFilename names[i] k

section Chosen

variable {requests : List UploadFileRequest} {names : List Bytes}

theorem Chosen.at? (h : Chosen requests names) {i : Nat}
    {request : UploadFileRequest} (hrequest : requests[i]? = some request) :
    ∃ name k, names[i]? = some name
      ∧ FirstFree (names.take i) request.originalFilename name k := by
  obtain ⟨hr, rfl⟩ := List.getElem?_eq_some_iff.1 hrequest
  have hn : i < names.length := by
    rw [h.length]
    exact hr
  obtain ⟨k, hfirst⟩ := h.found i hr hn
  exact ⟨names[i], k, List.getElem?_eq_getElem hn, hfirst⟩

/-- What is assigned so far is what is taken. -/
theorem Chosen.mem_take_iff_taken (h : Chosen requests names) (i : Nat)
    (name : Bytes) : name ∈ names.take i ↔ Taken requests i name := by
  constructor
  · intro hmem
    induction i using Nat.strong_induction_on generalizing name with
    | _ i ih =>
        obtain ⟨j, hj, hname⟩ := List.mem_take_iff_getElem.1 hmem
        have hr : j < requests.length := by
          rw [← h.length]
          omega
        obtain ⟨k, hfirst⟩ := h.found j hr (by omega)
        rw [← hname, hfirst.candidate]
        have hrequest := List.getElem?_eq_getElem hr
        exact .takes (by omega) hrequest hfirst.pos fun l hl hlk =>
          ih j (by omega) _ (hfirst.before l hl hlk)
  · intro htaken
    induction htaken with
    | @takes i j k request hj hrequest hk _ ih =>
        obtain ⟨name, k', hname, hfirst⟩ := h.at? hrequest
        have hgrow : names.take j ⊆ names.take i :=
          (List.take_sublist_take_left (Nat.le_of_lt hj)).subset
        rcases Nat.lt_trichotomy k k' with hlt | heq | hgt
        · exact hgrow (hfirst.before k hk hlt)
        · rw [heq, ← hfirst.candidate]
          exact List.mem_of_getElem? ((List.getElem?_take_of_lt hj).trans hname)
        · have hfree := hfirst.free
          rw [hfirst.candidate] at hfree
          exact absurd (ih k' hfirst.pos hgt) hfree

/-- The names fit exactly if the requests leave room. -/
theorem Chosen.fits_iff (h : Chosen requests names) :
    (∀ name ∈ names, name.length ≤ nameMax) ↔ Fits requests := by
  constructor
  · intro hshort i request hrequest
    obtain ⟨name, k, hname, hfirst⟩ := h.at? hrequest
    refine ⟨k, hfirst.pos, ?_, ?_⟩
    · rw [← hfirst.candidate]
      exact hshort name (List.mem_of_getElem? hname)
    · rw [← h.mem_take_iff_taken, ← hfirst.candidate]
      exact hfirst.free
  · intro hfits name hmem
    obtain ⟨i, hn, rfl⟩ := List.mem_iff_getElem.1 hmem
    have hr : i < requests.length := by
      rw [← h.length]
      exact hn
    obtain ⟨k, hpos, hlength, hfree⟩ :=
      hfits i requests[i] (List.getElem?_eq_getElem hr)
    obtain ⟨k', hfirst⟩ := h.found i hr hn
    rw [← h.mem_take_iff_taken] at hfree
    have hle : k' ≤ k := by
      by_contra hlt
      exact hfree (hfirst.before k hpos (Nat.lt_of_not_le hlt))
    rw [hfirst.candidate]
    exact Nat.le_trans (length_withCollisionSuffix_mono _ hfirst.pos hle) hlength

/-- Fewer numbers are tried than there are names before. -/
theorem FirstFree.le {used : List Bytes} {safe name : Bytes} {k : Nat}
    (h : FirstFree used safe name k) : k ≤ used.length + 1 := by
  have hinj : ((List.range (k - 1)).map fun l =>
      withCollisionSuffix safe (l + 1)).Nodup := by
    refine List.nodup_range.map fun l l' hl => ?_
    exact Nat.succ.inj (withCollisionSuffix_inj hl)
  have hused : ((List.range (k - 1)).map fun l =>
      withCollisionSuffix safe (l + 1)) ⊆ used := by
    intro candidate hmem
    obtain ⟨l, hl, rfl⟩ := List.mem_map.1 hmem
    rw [List.mem_range] at hl
    exact h.before (l + 1) (by omega) (by omega)
  have hlength := (List.subperm_of_subset hinj hused).length_le
  rw [List.length_map, List.length_range] at hlength
  omega

/-- Names that leave room for the number of requests fit. -/
theorem Chosen.fits_of_short (h : Chosen requests names)
    (hshort : ∀ request ∈ requests, request.originalFilename.length + 2
      + (decimal requests.length).length ≤ nameMax) : Fits requests := by
  rw [← h.fits_iff]
  intro name hmem
  obtain ⟨i, hn, rfl⟩ := List.mem_iff_getElem.1 hmem
  have hr : i < requests.length := by
    rw [← h.length]
    exact hn
  have hroom := hshort requests[i] (List.getElem_mem hr)
  obtain ⟨k, hfirst⟩ := h.found i hr hn
  have hle := hfirst.le
  rw [List.length_take] at hle
  rw [hfirst.candidate]
  by_cases hk : k = 1
  · rw [hk]
    show requests[i].originalFilename.length ≤ nameMax
    omega
  · have hdigits := @length_decimal_mono k requests.length (by omega)
    rw [length_withCollisionSuffix _ hk]
    omega

end Chosen

/-- A name that leaves no room for a number, asked for twice. -/
theorem not_fits_of_repeated {requests : List UploadFileRequest}
    {i j : Nat} {request request' : UploadFileRequest} (hij : i < j)
    (hi : requests[i]? = some request) (hj : requests[j]? = some request')
    (hsame : request'.originalFilename = request.originalFilename)
    (hlong : nameMax ≤ request.originalFilename.length + 2) :
    ¬Fits requests := by
  intro hfits
  obtain ⟨k, hpos, hlength, hfree⟩ := hfits j request' hj
  rw [hsame] at hlength hfree
  by_cases hk : k = 1
  · refine hfree ?_
    rw [hk]
    exact .takes hij hi Nat.one_pos fun l hl hlk => by omega
  · have hdigits := List.length_pos_iff.2 (decimal_ne_nil k)
    rw [length_withCollisionSuffix _ hk] at hlength
    omega

-- ========================================================= every session

/-- The names of a session that is returned. -/
theorem createSession_chosen {σ : Type}
    {effects : Effects (interface uploadStatements storeCalls) σ}
    {quota : UploadQuota} {drawn : Drawn} {requests : List UploadFileRequest}
    {session : UploadSession} {s s' : σ}
    (hrun : Returns effects (createSession quota drawn requests) s
      (.ok session) s') :
    Chosen requests (session.files.map (·.safeFilename)) := by
  obtain ⟨total, names, hadmit, rfl⟩ :=
    hrun.ends (createSession_ends quota drawn requests) session rfl
  obtain ⟨names', heq, hlength, hfound⟩ := admitFiles_found hadmit
  obtain rfl : names = names' := heq
  rw [toSession_files, requestRows_names hlength]
  refine ⟨hlength, fun i hr hn => ?_⟩
  obtain ⟨-, k, hfirst⟩ := hfound i hr hn
  rw [List.nil_append] at hfirst
  exact ⟨k, hfirst⟩

/-- All names of a session fit exactly if each request has a candidate
that fits and that those before it do not take. -/
theorem createSession_fits {σ : Type}
    {effects : Effects (interface uploadStatements storeCalls) σ}
    {quota : UploadQuota} {drawn : Drawn} {requests : List UploadFileRequest}
    {session : UploadSession} {s s' : σ}
    (hrun : Returns effects (createSession quota drawn requests) s
      (.ok session) s') :
    (∀ file ∈ session.files, file.safeFilename.length ≤ nameMax)
      ↔ Fits requests := by
  rw [← (createSession_chosen hrun).fits_iff]
  constructor
  · intro h name hname
    obtain ⟨file, hfile, rfl⟩ := List.mem_map.1 hname
    exact h file hfile
  · intro h file hfile
    exact h _ (List.mem_map_of_mem hfile)

/-- A run of `CreateSession` on a new database, where nothing fails. -/
def quietSession (requests : List UploadFileRequest) :
    Except Status UploadSession × Shared Unit UploadDb Unit :=
  (createSession .standard threeNonces requests).eval
    (Shared.answers uploadStatements (text "") quietOutside ())
    (.fresh (Link.opened .empty) ())

private theorem quietSession_returns (requests : List UploadFileRequest) :
    Returns (Shared.Acts uploadStatements false anyCall ())
      (createSession .standard threeNonces requests)
      (.fresh (Link.opened .empty) ()) (quietSession requests).1
      (quietSession requests).2 := by
  have houtside : ∀ c s, anyCall c s (quietOutside c s).1 (quietOutside c s).2 :=
    fun _ _ => trivial
  exact Program.eval_returns (Shared.answers_acts houtside) _ _

theorem createSession_fits_three : ∃ session : UploadSession,
    (quietSession threeRequests).1 = .ok session
      ∧ ((∀ file ∈ session.files, file.safeFilename.length ≤ nameMax)
        ↔ Fits threeRequests) := by
  have hok : (quietSession threeRequests).1.isOk = true := by
    rfl
  cases hsession : (quietSession threeRequests).1 with
  | error e =>
      rw [hsession] at hok
      cases hok
  | ok session =>
      have hrun := quietSession_returns threeRequests
      rw [hsession] at hrun
      exact ⟨session, rfl, createSession_fits hrun⟩

/-- Two files under one name, as long as a name can be. -/
def longRequests : List UploadFileRequest :=
  [⟨List.replicate 255 97, 1, none⟩, ⟨List.replicate 255 97, 1, none⟩]

/-- Both are accepted, and the second is given a name of 258 bytes. -/
theorem createSession_too_long : ∃ (session : UploadSession)
    (s' : Shared Unit UploadDb Unit),
    Returns (Shared.Acts uploadStatements false anyCall ())
        (createSession .standard threeNonces longRequests)
        (.fresh (Link.opened .empty) ()) (.ok session) s'
      ∧ ¬∀ file ∈ session.files, file.safeFilename.length ≤ nameMax := by
  have hok : (quietSession longRequests).1.isOk = true := by
    decide +kernel
  cases hsession : (quietSession longRequests).1 with
  | error e =>
      rw [hsession] at hok
      cases hok
  | ok session =>
      have hrun := quietSession_returns longRequests
      rw [hsession] at hrun
      refine ⟨session, _, hrun, fun hshort => ?_⟩
      have hfits : Fits longRequests := by
        rw [← (createSession_chosen hrun).fits_iff]
        intro name hname
        obtain ⟨file, hfile, rfl⟩ := List.mem_map.1 hname
        exact hshort file hfile
      have hlong : nameMax ≤ (List.replicate 255 (97 : UInt8)).length + 2 := by
        rw [List.length_replicate]
        decide
      exact not_fits_of_repeated Nat.zero_lt_one rfl rfl rfl hlong hfits

end PhotoBridge.Upload
