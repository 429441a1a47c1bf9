/-
The scheduler of the upload page uploads every job once, whatever the
sizes and in whatever order the uploads settle (`schedule_covers`).

A lane that finds nothing leaves for good. It finds nothing only when no
small job is left and, if large ones are, two of them are in flight; the
lanes that carry those find the next ones (`Ok.left`).
-/
import PhotoBridge.Upload.Page
import Mathlib.Algebra.BigOperators.Fin
import Mathlib.Algebra.Order.BigOperators.Group.Finset
import Mathlib.Data.Multiset.Basic
import Mathlib.Tactic.Abel
import Mathlib.Tactic.FinCases

namespace PhotoBridge.UploadPage

open Relation

variable {Job : Type} {size : Job → Nat} {jobs : List Job} {p p' : Page Job}
  {lane : Fin 3} {job : Job}

-- ================================================================ lanes

/-- One lane's share of a sum over the lanes is replaced. -/
theorem sum_update {M : Type} [AddCommMonoid M] (f : Worker Job → M)
    (workers : Fin 3 → Worker Job) (lane : Fin 3) (new : Worker Job) :
    ∑ l, f (Function.update workers lane new l) + f (workers lane)
      = ∑ l, f (workers l) + f new := by
  have hlane := Finset.mem_univ lane
  rw [← Finset.add_sum_erase _ _ hlane,
    ← Finset.add_sum_erase Finset.univ (fun l => f (workers l)) hlane,
    Function.update_self]
  have hothers : ∑ l ∈ Finset.univ.erase lane,
      f (Function.update workers lane new l)
        = ∑ l ∈ Finset.univ.erase lane, f (workers l) := by
    refine Finset.sum_congr rfl fun l hl => ?_
    rw [Function.update_of_ne (Finset.ne_of_mem_erase hl)]
  rw [hothers]
  abel

namespace Worker

/-- The job whose upload is in flight. -/
def inFlight : Worker Job → Multiset Job
  | .awaits job => {job}
  | _ => 0

/-- The job the lane has not let go of. -/
def carries : Worker Job → Multiset Job
  | .awaits job => {job}
  | .resumes job => {job}
  | _ => 0

/-- The turns the lane is sure to have. -/
def turns : Worker Job → Nat
  | .awaits _ => 2
  | .resumes _ => 1
  | _ => 0

end Worker

/-- A job of at least the threshold. -/
def IsLarge (size : Job → Nat) (job : Job) : Prop :=
  largeThreshold ≤ size job

instance (size : Job → Nat) : DecidablePred (IsLarge size) :=
  fun _ => inferInstanceAs (Decidable (_ ≤ _))

namespace Page

/-- The uploads in flight. -/
def inFlight (p : Page Job) : Multiset Job := ∑ lane, (p.workers lane).inFlight

/-- The jobs the lanes have not let go of. -/
def carried (p : Page Job) : Multiset Job := ∑ lane, (p.workers lane).carries

/-- The turns that are left. -/
def turns (p : Page Job) : Nat :=
  2 * (p.large.length + p.small.length) + ∑ lane, (p.workers lane).turns

-- ============================================================= the invariant

/-- What is so between two turns, with `least` two, and with `least` one
in the middle of a turn, where a lane has let go of its job. -/
structure Ok (size : Job → Nat) (jobs : List Job) (least : Int)
    (p : Page Job) : Prop where
  large : ∀ job ∈ p.large, IsLarge size job
  small : ∀ job ∈ p.small, ¬IsLarge size job
  active : p.activeLarge = (p.carried.countP (IsLarge size) : Nat)
  atMost : p.activeLarge ≤ 2
  jobs : (p.uploads : Multiset Job) + p.large + p.small = jobs
  settled : (p.uploads : Multiset Job) = p.settled + p.inFlight
  /-- A lane leaves only when the others have all that may be taken. -/
  left : ∀ lane, p.workers lane = .returned →
    p.small = [] ∧ (p.large = [] ∨ least ≤ p.activeLarge)

/-- What a lane can find. -/
theorem take_cases (lane : Fin 3) (p : Page Job) :
    (∃ job rest, p.large = job :: rest ∧ p.activeLarge < 2
        ∧ p.take lane = some (job,
          { p with large := rest, activeLarge := p.activeLarge + 1 }))
      ∨ (∃ job rest, p.small = job :: rest
        ∧ p.take lane = some (job, { p with small := rest }))
      ∨ p.small = [] ∧ (p.large = [] ∨ 2 ≤ p.activeLarge)
        ∧ p.take lane = none := by
  have hlarge : (∃ job rest, p.large = job :: rest ∧ p.activeLarge < 2
        ∧ p.takeLarge = some (job,
          { p with large := rest, activeLarge := p.activeLarge + 1 }))
      ∨ (p.large = [] ∨ 2 ≤ p.activeLarge) ∧ p.takeLarge = none := by
    unfold takeLarge
    cases hl : p.large with
    | nil => exact .inr ⟨.inl rfl, rfl⟩
    | cons job rest =>
        by_cases hroom : p.activeLarge < 2
        · exact .inl ⟨job, rest, rfl, hroom, if_pos hroom⟩
        · exact .inr ⟨.inr (not_lt.1 hroom), if_neg hroom⟩
  have hsmall : (∃ job rest, p.small = job :: rest
        ∧ p.takeSmall = some (job, { p with small := rest }))
      ∨ p.small = [] ∧ p.takeSmall = none := by
    unfold takeSmall
    cases hs : p.small with
    | nil => exact .inr ⟨rfl, rfl⟩
    | cons job rest => exact .inl ⟨job, rest, rfl, rfl⟩
  unfold take
  rcases hlarge with ⟨job, rest, hl, hroom, htake⟩ | ⟨hno, htake⟩
  · rcases hsmall with ⟨job', rest', hs, htake'⟩ | ⟨hs, htake'⟩
    · by_cases hlane : lane = 0
      · rw [if_pos hlane, htake]
        exact .inl ⟨job, rest, hl, hroom, rfl⟩
      · rw [if_neg hlane, htake']
        exact .inr (.inl ⟨job', rest', hs, rfl⟩)
    · by_cases hlane : lane = 0
      · rw [if_pos hlane, htake]
        exact .inl ⟨job, rest, hl, hroom, rfl⟩
      · rw [if_neg hlane, htake', htake]
        exact .inl ⟨job, rest, hl, hroom, rfl⟩
  · have hfirst : (if lane = 0 then p.takeLarge else none) = none := by
      rw [htake]
      exact ite_self none
    rw [hfirst, htake]
    rcases hsmall with ⟨job', rest', hs, htake'⟩ | ⟨hs, htake'⟩
    · rw [htake']
      exact .inr (.inl ⟨job', rest', hs, rfl⟩)
    · rw [htake']
      exact .inr (.inr ⟨hs, hno, rfl⟩)

/-- The sums over the lanes when one that carries nothing goes on. -/
theorem inFlight_update (hlane : p.workers lane = .unstarted)
    (new : Worker Job) : ∑ l, (Function.update p.workers lane new l).inFlight
      = p.inFlight + new.inFlight := by
  have hsum := sum_update Worker.inFlight p.workers lane new
  rw [hlane] at hsum
  exact (add_zero _).symm.trans hsum

private theorem carried_update (hlane : p.workers lane = .unstarted)
    (new : Worker Job) : ∑ l, (Function.update p.workers lane new l).carries
      = p.carried + new.carries := by
  have hsum := sum_update Worker.carries p.workers lane new
  rw [hlane] at hsum
  exact (add_zero _).symm.trans hsum

private theorem returned_update {l : Fin 3} {new : Worker Job}
    (h : Function.update p.workers lane new l = .returned) :
    new = .returned ∨ p.workers l = .returned := by
  by_cases hself : l = lane
  · rw [hself, Function.update_self] at h
    exact .inl h
  · rw [Function.update_of_ne hself] at h
    exact .inr h

private theorem countP_add_singleton (s : Multiset Job) (job : Job) :
    (s + {job}).countP (IsLarge size)
      = s.countP (IsLarge size) + if IsLarge size job then 1 else 0 := by
  rw [Multiset.countP_add, ← Multiset.cons_zero, Multiset.countP_cons,
    Multiset.countP_zero, Nat.zero_add]

/-- A lane that carries nothing is given a job, or leaves. -/
theorem Ok.loop (h : Ok size jobs 1 p) (hlane : p.workers lane = .unstarted) :
    Ok size jobs 2 (p.loop lane) := by
  unfold Page.loop
  rcases p.take_cases lane with ⟨job, rest, hl, hroom, htake⟩
    | ⟨job, rest, hs, htake⟩ | ⟨hs, hno, htake⟩
  · -- a large job
    have hjob : IsLarge size job := h.large job (by
      rw [hl]
      exact List.mem_cons_self)
    rw [htake]
    refine ⟨fun job' hmem => h.large job' ?_, h.small, ?_, ?_, ?_, ?_,
      fun l hl' => ?_⟩
    · rw [hl]
      exact List.mem_cons_of_mem job hmem
    · show p.activeLarge + 1 = _
      unfold Page.carried
      rw [carried_update hlane]
      show _ = (((p.carried + {job}).countP (IsLarge size) : Nat) : Int)
      rw [countP_add_singleton, if_pos hjob, h.active, Nat.cast_add,
        Nat.cast_one]
    · show p.activeLarge + 1 ≤ 2
      omega
    · rw [← h.jobs, hl, ← Multiset.coe_add, ← Multiset.cons_coe job rest,
        ← Multiset.singleton_add job]
      show (p.uploads : Multiset Job) + {job} + rest + p.small = _
      abel
    · unfold Page.inFlight
      rw [inFlight_update hlane, ← Multiset.coe_add, h.settled]
      exact add_assoc _ _ _
    · rcases returned_update hl' with hnew | hold
      · cases hnew
      · obtain ⟨hempty, hnone | hone⟩ := h.left l hold
        · rw [hl] at hnone
          cases hnone
        · refine ⟨hempty, .inr ?_⟩
          show 2 ≤ p.activeLarge + 1
          omega
  · -- a small one
    have hjob : ¬IsLarge size job := h.small job (by
      rw [hs]
      exact List.mem_cons_self)
    rw [htake]
    refine ⟨h.large, fun job' hmem => h.small job' ?_, ?_, h.atMost, ?_, ?_,
      fun l hl' => ?_⟩
    · rw [hs]
      exact List.mem_cons_of_mem job hmem
    · show p.activeLarge = _
      unfold Page.carried
      rw [carried_update hlane]
      show _ = (((p.carried + {job}).countP (IsLarge size) : Nat) : Int)
      rw [countP_add_singleton, if_neg hjob, h.active, Nat.add_zero]
    · rw [← h.jobs, hs, ← Multiset.coe_add, ← Multiset.cons_coe job rest,
        ← Multiset.singleton_add job]
      show (p.uploads : Multiset Job) + {job} + p.large + rest = _
      abel
    · unfold Page.inFlight
      rw [inFlight_update hlane, ← Multiset.coe_add, h.settled]
      exact add_assoc _ _ _
    · rcases returned_update hl' with hnew | hold
      · cases hnew
      · have hempty := (h.left l hold).1
        rw [hs] at hempty
        cases hempty
  · -- nothing
    rw [htake]
    refine ⟨h.large, h.small, ?_, h.atMost, h.jobs, ?_, fun l hl' => ?_⟩
    · unfold Page.carried
      rw [carried_update hlane]
      show p.activeLarge = (((p.carried + 0).countP (IsLarge size) : Nat) : Int)
      rw [add_zero]
      exact h.active
    · unfold Page.inFlight
      rw [inFlight_update hlane]
      show (p.uploads : Multiset Job) = p.settled + (p.inFlight + 0)
      rw [add_zero]
      exact h.settled
    · rcases returned_update hl' with - | hold
      · exact ⟨hs, hno⟩
      · exact ⟨hs, hno⟩

/-- The upload of a lane settles. -/
theorem Ok.settles (h : Ok size jobs 2 p)
    (hlane : p.workers lane = .awaits job) :
    Ok size jobs 2 { p with
      workers := Function.update p.workers lane (.resumes job)
      settled := p.settled ++ [job] } := by
  have hcarried := sum_update Worker.carries p.workers lane (.resumes job)
  have hinFlight := sum_update Worker.inFlight p.workers lane (.resumes job)
  rw [hlane] at hcarried hinFlight
  refine ⟨h.large, h.small, ?_, h.atMost, h.jobs, ?_, fun l hl => ?_⟩
  · have hsame := add_right_cancel hcarried
    unfold Page.carried
    rw [hsame]
    exact h.active
  · rw [← Multiset.coe_add]
    show _ = (p.settled : Multiset Job) + {job} + ∑ l, _
    have hflight : (∑ l, (Function.update p.workers lane (.resumes job)
        l).inFlight) + {job} = p.inFlight := hinFlight.trans (add_zero _)
    rw [h.settled, ← hflight]
    abel
  · rcases returned_update hl with hnew | hold
    · cases hnew
    · exact h.left l hold

/-- A lane whose upload has settled lets go of its job. -/
theorem Ok.release (h : Ok size jobs 2 p)
    (hlane : p.workers lane = .resumes job) :
    Ok size jobs 1 { p.release size job with
      workers := Function.update p.workers lane .unstarted } := by
  have hcarried := sum_update Worker.carries p.workers lane .unstarted
  have hinFlight := sum_update Worker.inFlight p.workers lane .unstarted
  rw [hlane] at hcarried hinFlight
  have hcarried' : (∑ l, (Function.update p.workers lane .unstarted l).carries)
      + {job} = p.carried := hcarried.trans (add_zero _)
  have hinFlight' : ∑ l, (Function.update p.workers lane .unstarted l).inFlight
      = p.inFlight := add_right_cancel hinFlight
  have hactive := h.active
  rw [← hcarried', countP_add_singleton] at hactive
  have hsettled : (p.uploads : Multiset Job) = p.settled
      + ∑ l, (Function.update p.workers lane .unstarted l).inFlight := by
    rw [hinFlight']
    exact h.settled
  unfold Page.release
  by_cases hjob : largeThreshold ≤ size job
  · rw [if_pos hjob]
    rw [if_pos (show IsLarge size job from hjob)] at hactive
    refine ⟨h.large, h.small, ?_, ?_, h.jobs, hsettled, fun l hl => ?_⟩
    · show p.activeLarge - 1 = _
      rw [hactive, Nat.cast_add, Nat.cast_one, add_sub_cancel_right]
      rfl
    · have hle := h.atMost
      show p.activeLarge - 1 ≤ 2
      omega
    · rcases returned_update hl with hnew | hold
      · cases hnew
      · obtain ⟨hempty, hrest⟩ := h.left l hold
        refine ⟨hempty, hrest.imp_right fun htwo => ?_⟩
        show 1 ≤ p.activeLarge - 1
        omega
  · rw [if_neg hjob]
    rw [if_neg (show ¬IsLarge size job from hjob), Nat.add_zero] at hactive
    refine ⟨h.large, h.small, hactive, h.atMost, h.jobs, hsettled,
      fun l hl => ?_⟩
    rcases returned_update hl with hnew | hold
    · cases hnew
    · obtain ⟨hempty, hrest⟩ := h.left l hold
      refine ⟨hempty, hrest.imp_right fun htwo => ?_⟩
      show 1 ≤ p.activeLarge
      omega

-- ================================================================ turns

/-- What a lane finds has nothing to do with where the lanes are. -/
theorem take_workers (workers : Fin 3 → Worker Job) (lane : Fin 3)
    (p : Page Job) :
    take lane { p with workers }
      = (p.take lane).map fun taken => (taken.1, { taken.2 with workers }) := by
  unfold take takeLarge takeSmall
  cases p.large with
  | nil => cases p.small <;> by_cases hlane : lane = 0 <;> simp [hlane]
  | cons job rest =>
      by_cases hroom : p.activeLarge < 2
      · cases p.small <;> by_cases hlane : lane = 0 <;> simp [hlane, hroom]
      · cases p.small <;> by_cases hlane : lane = 0 <;> simp [hlane, hroom]

theorem workers_of_take {q : Page Job} (h : p.take lane = some (job, q)) :
    q.workers = p.workers := by
  have hsame := take_workers p.workers lane p
  rw [show { p with workers := p.workers } = p from rfl, h] at hsame
  have hpair := Option.some.inj hsame
  exact congrArg (fun taken => taken.2.workers) hpair

/-- Nor has its turn to do with where it was. -/
theorem loop_update (lane : Fin 3) (worker : Worker Job) (p : Page Job) :
    Page.loop lane { p with
      workers := Function.update p.workers lane worker } = p.loop lane := by
  unfold Page.loop
  rw [take_workers]
  cases htake : p.take lane with
  | none => simp only [Option.map_none, Function.update_idem]
  | some taken =>
      obtain ⟨job, q⟩ := taken
      simp only [Option.map_some, Function.update_idem, workers_of_take htake]

/-- The other lanes stay where they are, and this one has begun. -/
theorem loop_workers (lane : Fin 3) (p : Page Job) :
    ∃ worker, worker ≠ .unstarted
      ∧ (p.loop lane).workers = Function.update p.workers lane worker := by
  unfold Page.loop
  cases htake : p.take lane with
  | none => exact ⟨.returned, nofun, rfl⟩
  | some taken =>
      obtain ⟨job, q⟩ := taken
      refine ⟨.awaits job, nofun, ?_⟩
      rw [← workers_of_take htake]

/-- A turn takes none of the turns that are left. -/
theorem turns_loop (lane : Fin 3) (p : Page Job) :
    (p.loop lane).turns + (p.workers lane).turns = p.turns := by
  have hsum := sum_update Worker.turns p.workers lane
  unfold Page.loop
  rcases p.take_cases lane with ⟨job, rest, hl, -, htake⟩
    | ⟨job, rest, hs, htake⟩ | ⟨-, -, htake⟩
  · have hjob := hsum (.awaits job)
    rw [htake]
    unfold Page.turns
    rw [hl, List.length_cons]
    show 2 * (rest.length + p.small.length)
      + ∑ l, (Function.update p.workers lane (.awaits job) l).turns
      + (p.workers lane).turns = _
    have htwo : (Worker.awaits job).turns = 2 := rfl
    omega
  · have hjob := hsum (.awaits job)
    rw [htake]
    unfold Page.turns
    rw [hs, List.length_cons]
    show 2 * (p.large.length + rest.length)
      + ∑ l, (Function.update p.workers lane (.awaits job) l).turns
      + (p.workers lane).turns = _
    have htwo : (Worker.awaits job).turns = 2 := rfl
    omega
  · have hnone := hsum .returned
    rw [htake]
    unfold Page.turns
    show 2 * (p.large.length + p.small.length)
      + ∑ l, (Function.update p.workers lane .returned l).turns
      + (p.workers lane).turns = _
    have hzero : (Worker.returned : Worker Job).turns = 0 := rfl
    omega

-- ================================================================= runs

/-- What is so between turns: no lane is unstarted any more. -/
structure Between (size : Job → Nat) (jobs : List Job) (p : Page Job) : Prop
    extends Ok size jobs 2 p where
  started : ∀ lane, p.workers lane ≠ .unstarted

theorem Ok.mono (h : Ok size jobs 2 p) : Ok size jobs 1 p := by
  refine ⟨h.large, h.small, h.active, h.atMost, h.jobs, h.settled,
    fun lane hlane => ?_⟩
  obtain ⟨hempty, hrest⟩ := h.left lane hlane
  exact ⟨hempty, hrest.imp_right fun htwo => by omega⟩

private theorem filter_append_filter (size : Job → Nat) (jobs : List Job) :
    (jobs.filter (fun job => largeThreshold ≤ size job)
      ++ jobs.filter fun job => size job < largeThreshold).Perm jobs := by
  have hsmall : (fun job => decide (size job < largeThreshold))
      = fun job => !decide (largeThreshold ≤ size job) := by
    funext job
    rw [← decide_not]
    exact decide_eq_decide.2 Nat.not_le.symm
  rw [hsmall]
  exact List.filter_append_perm _ jobs

private theorem initial_ok (size : Job → Nat) (jobs : List Job) :
    Ok size jobs 2 (initial size jobs) := by
  have hcarried : (initial size jobs).carried = 0 :=
    Finset.sum_const_zero
  have hinFlight : (initial size jobs).inFlight = 0 :=
    Finset.sum_const_zero
  refine ⟨fun job hmem => ?_, fun job hmem => ?_, ?_, ?_, ?_, ?_,
    fun lane hlane => ?_⟩
  · exact of_decide_eq_true (List.mem_filter.1 hmem).2
  · exact Nat.not_le.2 (of_decide_eq_true (List.mem_filter.1 hmem).2)
  · rw [hcarried]
    rfl
  · show (0 : Int) ≤ 2
    omega
  · show ((([] : List Job) : Multiset Job) + _ + _) = _
    rw [Multiset.coe_nil, zero_add, Multiset.coe_add, Multiset.coe_eq_coe]
    exact filter_append_filter size jobs
  · rw [hinFlight]
    rfl
  · cases hlane

private theorem runThreeLane_between (size : Job → Nat) (jobs : List Job) :
    Between size jobs (runThreeLane size jobs) := by
  obtain ⟨worker₀, hne₀, hw₀⟩ := loop_workers 0 (initial size jobs)
  obtain ⟨worker₁, hne₁, hw₁⟩ :=
    loop_workers 1 ((initial size jobs).loop 0)
  obtain ⟨worker₂, hne₂, hw₂⟩ :=
    loop_workers 2 (((initial size jobs).loop 0).loop 1)
  have h₀ : Ok size jobs 2 ((initial size jobs).loop 0) :=
    (initial_ok size jobs).mono.loop rfl
  have h₁ : Ok size jobs 2 (((initial size jobs).loop 0).loop 1) := by
    refine h₀.mono.loop ?_
    rw [hw₀]
    rfl
  have h₂ : Ok size jobs 2 ((((initial size jobs).loop 0).loop 1).loop 2) := by
    refine h₁.mono.loop ?_
    rw [hw₁, hw₀]
    rfl
  refine ⟨h₂, fun lane => ?_⟩
  unfold runThreeLane
  rw [hw₂, hw₁, hw₀]
  fin_cases lane
  · exact hne₀
  · exact hne₁
  · exact hne₂

theorem Step.between (h : Between size jobs p) (hstep : Step size p p') :
    Between size jobs p' := by
  cases hstep with
  | @settles lane job hlane =>
      refine ⟨h.toOk.settles hlane, fun l hl => ?_⟩
      by_cases hself : l = lane
      · have hnew : Function.update p.workers lane (.resumes job) l
            = .unstarted := hl
        rw [hself, Function.update_self] at hnew
        cases hnew
      · have hold : Function.update p.workers lane (.resumes job) l
            = .unstarted := hl
        rw [Function.update_of_ne hself] at hold
        exact h.started l hold
  | @resumes lane job hlane =>
      have hworkers : (p.release size job).workers = p.workers := by
        unfold Page.release
        split
        · rfl
        · rfl
      have hok := (h.toOk.release hlane).loop (Function.update_self ..)
      have hsame := loop_update lane .unstarted (p.release size job)
      rw [hworkers] at hsame
      rw [hsame] at hok
      refine ⟨hok, fun l hl => ?_⟩
      obtain ⟨worker, hne, hw⟩ := loop_workers lane (p.release size job)
      rw [hw, hworkers] at hl
      by_cases hself : l = lane
      · rw [hself, Function.update_self] at hl
        exact hne hl
      · rw [Function.update_of_ne hself] at hl
        exact h.started l hl

/-- Every step takes one of the turns that are left. -/
theorem Step.turns (hstep : Step size p p') : p'.turns + 1 = p.turns := by
  cases hstep with
  | @settles lane job hlane =>
      have hsum := sum_update Worker.turns p.workers lane (.resumes job)
      rw [hlane] at hsum
      unfold Page.turns
      have hone : (Worker.resumes job).turns = 1 := rfl
      have htwo : (Worker.awaits job).turns = 2 := rfl
      simp only at hsum ⊢
      omega
  | @resumes lane job hlane =>
      have hsame : (p.release size job).turns = p.turns
          ∧ (p.release size job).workers lane = .resumes job := by
        unfold Page.release
        split
        · exact ⟨rfl, hlane⟩
        · exact ⟨rfl, hlane⟩
      have hloop := turns_loop lane (p.release size job)
      rw [hsame.1, hsame.2] at hloop
      exact hloop

/-- Unless every lane has returned, something can happen. -/
theorem Between.proceeds (h : Between size jobs p) (hopen : ¬p.Resolved) :
    ∃ p', Step size p p' := by
  unfold Resolved at hopen
  push Not at hopen
  obtain ⟨lane, hlane⟩ := hopen
  cases hworker : p.workers lane with
  | unstarted => exact absurd hworker (h.started lane)
  | awaits job => exact ⟨_, .settles hworker⟩
  | resumes job => exact ⟨_, .resumes hworker⟩
  | returned => exact absurd hworker hlane

/-- When every lane has returned, nothing is left and nothing carried. -/
theorem Between.resolved (h : Between size jobs p) (hall : p.Resolved) :
    p.uploads.Perm jobs ∧ p.settled.Perm jobs := by
  have hcarried : p.carried = 0 :=
    Finset.sum_eq_zero fun lane _ => by rw [hall lane]; rfl
  have hinFlight : p.inFlight = 0 :=
    Finset.sum_eq_zero fun lane _ => by rw [hall lane]; rfl
  have hactive := h.active
  rw [hcarried, Multiset.countP_zero, Nat.cast_zero] at hactive
  obtain ⟨hsmall, hrest⟩ := h.left 0 (hall 0)
  have hlarge : p.large = [] := hrest.resolve_right (by omega)
  have hjobs := h.jobs
  rw [hsmall, hlarge, Multiset.coe_nil, add_zero, add_zero,
    Multiset.coe_eq_coe] at hjobs
  have hsettled := h.settled
  rw [hinFlight, add_zero, Multiset.coe_eq_coe] at hsettled
  exact ⟨hjobs, hsettled.symm.trans hjobs⟩

theorem inFlight_le_carried (p : Page Job) : p.inFlight ≤ p.carried := by
  refine Finset.sum_le_sum fun lane _ => ?_
  cases p.workers lane with
  | unstarted => exact le_refl _
  | awaits job => exact le_refl _
  | resumes job => exact Multiset.zero_le _
  | returned => exact le_refl _

theorem card_inFlight_le (p : Page Job) : Multiset.card p.inFlight ≤ 3 := by
  unfold Page.inFlight
  rw [Multiset.card_sum]
  refine (Finset.sum_le_card_nsmul _ _ 1 fun lane _ => ?_).trans (le_refl _)
  cases p.workers lane with
  | unstarted => exact Nat.zero_le _
  | awaits job => exact le_refl _
  | resumes job => exact Nat.zero_le _
  | returned => exact Nat.zero_le _

theorem Between.largeInFlight (h : Between size jobs p) :
    p.inFlight.countP (IsLarge size) ≤ 2 := by
  have hle := Multiset.countP_le_of_le (IsLarge size) p.inFlight_le_carried
  have hactive := h.active
  have hmost := h.atMost
  omega

private theorem between_of_run (hrun : ReflTransGen (Step size)
    (runThreeLane size jobs) p) : Between size jobs p := by
  induction hrun with
  | refl => exact runThreeLane_between size jobs
  | tail _ hstep ih => exact hstep.between ih

private theorem turns_runThreeLane (size : Job → Nat) (jobs : List Job) :
    (runThreeLane size jobs).turns = 2 * jobs.length := by
  obtain ⟨worker₀, -, hw₀⟩ := loop_workers 0 (initial size jobs)
  obtain ⟨worker₁, -, hw₁⟩ := loop_workers 1 ((initial size jobs).loop 0)
  have h₀ := turns_loop 0 (initial size jobs)
  have h₁ := turns_loop 1 ((initial size jobs).loop 0)
  have h₂ := turns_loop 2 (((initial size jobs).loop 0).loop 1)
  have hnone : (Worker.unstarted : Worker Job).turns = 0 := rfl
  have hone : ((initial size jobs).loop 0).workers 1 = .unstarted := by
    rw [hw₀]
    rfl
  have htwo : (((initial size jobs).loop 0).loop 1).workers 2
      = .unstarted := by
    rw [hw₁, hw₀]
    rfl
  rw [hone, hnone] at h₁
  rw [htwo, hnone] at h₂
  have hbegin : (initial size jobs).turns = 2 * jobs.length := by
    have hlengths := (filter_append_filter size jobs).length_eq
    rw [List.length_append] at hlengths
    have hlanes : ∑ lane, ((initial size jobs).workers lane).turns = 0 :=
      Finset.sum_const_zero
    unfold Page.turns
    rw [hlanes, Nat.add_zero]
    exact congrArg (2 * ·) hlengths
  have hzero : ((initial size jobs).workers 0).turns = 0 := rfl
  unfold runThreeLane
  omega

end Page

open Page

/-- The scheduler covers every job. A job stands for itself, also where
another of the list is equal to it. -/
structure ScheduleCovers (size : Job → Nat) : Prop where
  /-- No upload is started twice, and none that is not asked for. -/
  once : ∀ (jobs : List Job) (p : Page Job),
    ReflTransGen (Step size) (runThreeLane size jobs) p →
    ∃ others, (p.uploads ++ others).Perm jobs
  bounded : ∀ (jobs : List Job) (p : Page Job),
    ReflTransGen (Step size) (runThreeLane size jobs) p →
    Multiset.card p.inFlight ≤ 3 ∧ p.inFlight.countP (IsLarge size) ≤ 2
  /-- When the promise resolves, every upload was started and has
  settled. -/
  resolves : ∀ (jobs : List Job) (p : Page Job),
    ReflTransGen (Step size) (runThreeLane size jobs) p → p.Resolved →
    p.uploads.Perm jobs ∧ p.settled.Perm jobs
  /-- And it does: until then something can happen, and there are two
  steps for each job. -/
  proceeds : ∀ (jobs : List Job) (p : Page Job),
    ReflTransGen (Step size) (runThreeLane size jobs) p → ¬p.Resolved →
    ∃ p', Step size p p'
  ends : ∀ (jobs : List Job) (n : Nat) (run : Nat → Page Job),
    run 0 = runThreeLane size jobs →
    (∀ i, i < n → Step size (run i) (run (i + 1))) → n ≤ 2 * jobs.length

/-- Whatever the sizes. -/
theorem schedule_covers (size : Job → Nat) : ScheduleCovers size where
  once := by
    intro jobs p hrun
    have hjobs := (between_of_run hrun).jobs
    refine ⟨p.large ++ p.small, ?_⟩
    rw [← List.append_assoc, ← Multiset.coe_eq_coe, ← Multiset.coe_add,
      ← Multiset.coe_add]
    exact hjobs
  bounded := fun jobs p hrun =>
    ⟨p.card_inFlight_le, (between_of_run hrun).largeInFlight⟩
  resolves := fun jobs p hrun hall => (between_of_run hrun).resolved hall
  proceeds := fun jobs p hrun hopen => (between_of_run hrun).proceeds hopen
  ends := by
    intro jobs n run hstart hsteps
    have hturns : ∀ i, i ≤ n → (run i).turns + i = 2 * jobs.length := by
      intro i
      induction i with
      | zero =>
          intro _
          rw [hstart, turns_runThreeLane]
          rfl
      | succ i ih =>
          intro hi
          have hstep := (hsteps i (by omega)).turns
          have hbefore := ih (by omega)
          omega
    have hlast := hturns n (le_refl n)
    omega

end PhotoBridge.UploadPage
