/-
The scheduler of the upload page (`runThreeLane` of the script in
`upload_page.cpp`): three lanes that take jobs from two queues.

Between two awaits a script runs undisturbed, so a lane's turn is one
step: `worker` from where its upload settled to the next call of `upload`
or to its return. Uploads settle in any order, and a lane whose upload
has settled goes on at some time after that.
-/
import Mathlib.Data.List.Basic
import Mathlib.Logic.Function.Basic

namespace PhotoBridge.UploadPage

variable {Job : Type}

/-- Where `worker(lane)` is. -/
inductive Worker (Job : Type)
  | unstarted
  /-- The upload of the job is in flight. -/
  | awaits (job : Job)
  /-- The upload has settled, and the lane has not gone on yet. -/
  | resumes (job : Job)
  | returned

/-- The variables of `runThreeLane` and where its lanes are. -/
structure Page (Job : Type) where
  large : List Job
  small : List Job
  activeLarge : Int
  workers : Fin 3 → Worker Job
  /-- The calls of `upload` so far. -/
  uploads : List Job
  /-- Those of them whose promise has settled. -/
  settled : List Job

def largeThreshold : Nat := 256 * 1024 * 1024

namespace Page

/-- `large.shift()`, where it may be taken from. -/
def takeLarge (p : Page Job) : Option (Job × Page Job) :=
  match p.large with
  | [] => none
  | job :: rest =>
      if p.activeLarge < 2 then
        some (job, { p with large := rest, activeLarge := p.activeLarge + 1 })
      else none

/-- `small.shift()`. -/
def takeSmall (p : Page Job) : Option (Job × Page Job) :=
  match p.small with
  | [] => none
  | job :: rest => some (job, { p with small := rest })

/-- `take`: the first lane looks for a large job first. -/
def take (lane : Fin 3) (p : Page Job) : Option (Job × Page Job) :=
  (if lane = 0 then p.takeLarge else none) <|> p.takeSmall <|> p.takeLarge

/-- The loop of `worker` up to its next await, or to its end. -/
def loop (lane : Fin 3) (p : Page Job) : Page Job :=
  match p.take lane with
  | none => { p with workers := Function.update p.workers lane .returned }
  | some (job, p) =>
      { p with
        workers := Function.update p.workers lane (.awaits job)
        uploads := p.uploads ++ [job] }

variable (size : Job → Nat)

/-- The `finally` after an upload. -/
def release (job : Job) (p : Page Job) : Page Job :=
  if largeThreshold ≤ size job then
    { p with activeLarge := p.activeLarge - 1 }
  else p

/-- Before the lanes begin. -/
def initial (jobs : List Job) : Page Job where
  large := jobs.filter fun job => largeThreshold ≤ size job
  small := jobs.filter fun job => size job < largeThreshold
  activeLarge := 0
  workers := fun _ => .unstarted
  uploads := []
  settled := []

/-- `runThreeLane` up to where it awaits its lanes. -/
def runThreeLane (jobs : List Job) : Page Job :=
  (((initial size jobs).loop 0).loop 1).loop 2

/-- What happens next: an upload settles, or a lane whose upload has
settled goes on. -/
inductive Step : Page Job → Page Job → Prop
  | settles {p : Page Job} {lane : Fin 3} {job : Job}
      (h : p.workers lane = .awaits job) :
      Step p { p with
        workers := Function.update p.workers lane (.resumes job)
        settled := p.settled ++ [job] }
  | resumes {p : Page Job} {lane : Fin 3} {job : Job}
      (h : p.workers lane = .resumes job) :
      Step p ((p.release size job).loop lane)

/-- `Promise.all` has resolved: every lane has returned. -/
def Resolved (p : Page Job) : Prop := ∀ lane, p.workers lane = .returned

end Page

end PhotoBridge.UploadPage
