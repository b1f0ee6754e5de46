import ThreatScanner.Bulk.Finality
import ThreatScanner.Jobs.Projection

/-!
# What is kept of a bulk scan

The results of a bulk scan are only ever added to. A job that has completed stays so, and its
findings change no more; the other two terminal statuses promise less, as tasks can still be in
work then.
-/

namespace ThreatScanner

namespace Bulk

open Transition

variable {cfg : Config} {s t : BulkState} {l : Label} {job job' job'' : BulkJob}

/-- What a later state of a job keeps of an earlier one. -/
structure BulkJob.Later (job job' : BulkJob) : Prop where
  owner : job'.userId = job.userId
  results : job.results <+: job'.results
  completed : job.status = .completed →
    job'.status = .completed ∧ job'.findings = job.findings

theorem BulkJob.Later.refl (job : BulkJob) : job.Later job :=
  ⟨rfl, List.prefix_rfl, fun h => ⟨h, rfl⟩⟩

theorem BulkJob.Later.trans (h : job.Later job') (h' : job'.Later job'') : job.Later job'' where
  owner := h'.owner.trans h.owner
  results := h.results.trans h'.results
  completed hdone := by
    obtain ⟨hdone', hsame⟩ := h.completed hdone
    obtain ⟨hdone'', hsame'⟩ := h'.completed hdone'
    exact ⟨hdone'', hsame'.trans hsame⟩

/-- A job completes when `run_bulk_scan_job` ends, after all its tasks. -/
def Completes (s : BulkState) : Prop :=
  s.job.status = .completed → s.runner = .finished ∧ s.tasks.all Task.ended = true

theorem completes_start : Completes (.start cfg cfg.queuedJob) := fun h => by cases h

/-- A job is not completed while a task of it is in work, or may pass the semaphore. -/
theorem Completes.not_completed (C : Completes s) {i : Nat} {task : Task}
    (htask : s.tasks[i]? = some task) (hgoing : task.ended = false) :
    s.job.status ≠ .completed := fun hdone =>
  Bool.false_ne_true (hgoing.symm.trans (not_ended_of_mem (C hdone).2 htask))

theorem Completes.not_completed_of_ends (C : Completes s) {i : Nat} {scan : Scan}
    (hends : Ends cfg s i scan l) : s.job.status ≠ .completed := by
  obtain ⟨task, htask, hholds⟩ := hends.holds
  exact C.not_completed htask (Task.not_ended_of_holds hholds)

theorem Completes.not_completed_of_runner (C : Completes s) (hrunner : s.runner ≠ .finished) :
    s.job.status ≠ .completed := fun hdone => hrunner (C hdone).1

theorem Turn.completes (C : Completes s) (h : Turn cfg s l t) : Completes t := by
  cases h with
  | launch | fail | stop | cancel => exact fun hdone => by cases hdone
  | complete _ _ hended => exact fun _ => ⟨rfl, hended⟩
  | cancelEnded | refuse => exact C
  | skip _ htask | pass _ htask | archive _ htask =>
    exact fun hdone => absurd hdone (C.not_completed htask rfl)
  | record _ hends | raise _ hends =>
    exact fun hdone => absurd hdone (C.not_completed_of_ends hends)

/-- One step keeps the results, and the findings of a completed job. -/
theorem Turn.later (C : Completes s) (h : Turn cfg s l t) : s.job.Later t.job := by
  cases h with
  | launch hrunner | fail hrunner | stop hrunner | complete hrunner =>
    refine ⟨rfl, List.prefix_rfl, fun hdone => absurd hdone (C.not_completed_of_runner ?_)⟩
    rw [hrunner]
    intro hfinished
    cases hfinished
  | skip | archive | refuse => exact .refl _
  | pass | cancelEnded => exact ⟨rfl, List.prefix_rfl, fun hdone => ⟨hdone, rfl⟩⟩
  | record _ hends =>
    exact ⟨rfl, List.prefix_append _ _, fun hdone => absurd hdone (C.not_completed_of_ends hends)⟩
  | raise _ hends =>
    exact ⟨rfl, List.prefix_rfl, fun hdone => absurd hdone (C.not_completed_of_ends hends)⟩
  | cancel _ hstatus =>
    refine ⟨rfl, List.prefix_rfl, fun hdone => ?_⟩
    rw [hdone] at hstatus
    rcases hstatus with h | h <;> cases h

end Bulk

namespace Jobs

open Scan Bulk Transition

variable {lower upper : String → String} {s t : JobsState} {l : Label} {ls : List Label}

/-- Every bulk scan of the service is in a state that its steps can lead to. -/
def Kept (s : JobsState) : Prop :=
  ∀ id r, s.bulkJobs.get? id = some r → Sound r.config r.state ∧ Completes r.state

theorem run_kept (hrun : run lower upper ls = some s) : Kept s := by
  intro id r hr
  obtain ⟨_, _, user, data, effects, targets, job, -, hstart, hconfig, hown⟩ :=
    run_bulk_alone hrun id r hr
  rw [queuedJob_requestConfig hstart, ← hconfig] at hown
  refine exec_invariant (fun b => Sound r.config b ∧ Completes b) ?_
    ⟨sound_start, completes_start⟩ hown
  rintro b l b' ⟨S, C⟩ hstep
  obtain ⟨hturn, S'⟩ := S.step hstep
  exact ⟨S', hturn.completes C⟩

/-- One step of the service keeps what it has on a bulk scan. -/
theorem step_later {id : BulkId} {r : BulkRun} (K : Kept s) (h : step lower upper s l = some t)
    (hr : s.bulkJobs.get? id = some r) :
    ∃ r', t.bulkJobs.get? id = some r' ∧ r.state.job.Later r'.state.job := by
  obtain ⟨r', hr', -, hfollows⟩ := (step_moves h).bulk_follows hr
  refine ⟨r', hr', ?_⟩
  obtain ⟨S, C⟩ := K id r hr
  cases hl : bulkLabel id l with
  | none =>
    rw [hl] at hfollows
    have hsame : r'.state = r.state := hfollows
    rw [hsame]
    exact .refl _
  | some l' =>
    rw [hl] at hfollows
    exact (S.step hfollows).1.later C

end Jobs

end ThreatScanner
