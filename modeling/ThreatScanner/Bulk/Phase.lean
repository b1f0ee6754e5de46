import ThreatScanner.Bulk.Invariant

/-!
# The status of a bulk job and its runner

What the order of the steps says about the status of the job while `run_bulk_scan_job` has not
started, is gathering its tasks, or has ended.
-/

namespace ThreatScanner.Bulk

open Transition

variable {cfg : Config} {s t : BulkState} {scan : Scan} {i : Nat} {task : Task} {l : Label}

/-- Before `run_bulk_scan_job` starts, the job is not running and no task has moved; a queued job
has not started, and a job that is not cancelled runs until `run_bulk_scan_job` ends. -/
structure Phased (s : BulkState) : Prop where
  pending : s.runner = .pending → s.job.status ≠ .running ∧ ∀ task ∈ s.tasks, task = .waiting
  queued : s.job.status = .queued → s.runner = .pending
  requested : s.runner ≠ .finished → s.job.status ≠ .queued → s.job.status ≠ .running →
    s.job.cancelRequested = true

theorem Phased.of_tasks (P : Phased s) (htask : s.tasks[i]? = some task) (hne : task ≠ .waiting) :
    s.runner ≠ .pending := fun h => hne ((P.pending h).2 task (List.mem_of_getElem? htask))

theorem Phased.of_ends (P : Phased s) (h : Ends cfg s i scan l) : s.runner ≠ .pending := by
  obtain ⟨task, htask, hholds⟩ := h.holds
  refine P.of_tasks htask ?_
  rintro rfl
  cases hholds

/-- A step of a task leaves the status of the job and the runner. -/
theorem Phased.move (P : Phased s) (hrunner : s.runner ≠ .pending) (ht : t.runner = s.runner)
    (hstatus : t.job.status = s.job.status)
    (hcancel : t.job.cancelRequested = s.job.cancelRequested) : Phased t where
  pending h := (hrunner (ht.symm.trans h)).elim
  queued h := (hrunner (P.queued (hstatus.symm.trans h))).elim
  requested := by
    rw [ht, hstatus, hcancel]
    exact P.requested

theorem Turn.phased (P : Phased s) (h : Turn cfg s l t) : Phased t := by
  cases h with
  | launch => exact ⟨nofun, nofun, fun _ _ h => (h rfl).elim⟩
  | skip _ _ hrunner => exact P.move hrunner rfl rfl rfl
  | pass _ _ hrunner => exact P.move hrunner rfl rfl rfl
  | archive _ htask => exact P.move (P.of_tasks htask nofun) rfl rfl rfl
  | record _ hends | raise _ hends => exact P.move (P.of_ends hends) rfl rfl rfl
  | fail | stop | complete => exact ⟨nofun, nofun, fun h => (h rfl).elim⟩
  | cancel => exact ⟨fun h => ⟨nofun, (P.pending h).2⟩, nofun, fun _ _ _ => rfl⟩
  | cancelEnded => exact ⟨P.pending, P.queued, fun _ _ _ => rfl⟩
  | refuse => exact P

/-- The job that `bulk_scan_start` creates for the arguments it passes on. -/
def Config.queuedJob (cfg : Config) : BulkJob :=
  Bulk.queuedJob cfg.profile (cfg.scans.map (·.target)) cfg.concurrency.toNat cfg.includeArchive
    cfg.userId

theorem phased_start {job : BulkJob} (hstatus : job.status = .queued) :
    Phased (.start cfg job) where
  pending _ := by
    refine ⟨by simp [BulkState.start, hstatus], fun task h => ?_⟩
    obtain ⟨_, _, rfl⟩ := List.mem_map.mp h
    rfl
  queued _ := rfl
  requested _ hne := (hne hstatus).elim

/-- The invariants of a run together. -/
structure Sound (cfg : Config) (s : BulkState) : Prop extends Consistent cfg s where
  phased : Phased s

theorem Sound.step (S : Sound cfg s) (h : s.step cfg l = some t) :
    Turn cfg s l t ∧ Sound cfg t := by
  have hturn := turn_of_step S.tracks.archivingResults h
  exact ⟨hturn, ⟨(S.toConsistent.step h).2, hturn.phased S.phased⟩⟩

theorem sound_start : Sound cfg (.start cfg cfg.queuedJob) :=
  ⟨consistent_start queued_queuedJob, phased_start rfl⟩

theorem sound_exec {ls : List Label} (S : Sound cfg s)
    (hrun : exec (BulkState.step cfg) s ls = some t) : Sound cfg t :=
  exec_invariant (Sound cfg) (fun _ _ _ S h => (S.step h).2) S hrun

end ThreatScanner.Bulk
