import ThreatScanner.Bulk.Failures
import ThreatScanner.Bulk.Phase
import ThreatScanner.Library.Termination

/-!
# A bulk scan comes to its end

A task makes three steps at most: it passes the semaphore, its analysis ends, its archive answers.
So `run_bulk_scan_job` and its tasks make a bounded number of steps, whatever is cancelled or
raised, and as long as they have not all ended one of them can go on: the semaphore never keeps
every task out.
-/

namespace ThreatScanner.Bulk

open Transition Slots

variable {cfg : Config} {s t : BulkState} {scan : Scan} {i : Nat} {task task' : Task} {l : Label}

/-- The steps of `run_bulk_scan_job` and its tasks; the others are cancel requests. -/
def Label.ofJob : Label → Bool
  | .launch | .pass _ | .analyzed _ | .archived _ | .finish => true
  | .cancel _ => false

def Task.stepsLeft : Task → Nat
  | .waiting => 3
  | .analyzing => 2
  | .archiving _ => 1
  | .skipped | .recorded | .raised => 0

def Runner.stepsLeft : Runner → Nat
  | .pending => 2
  | .gathering => 1
  | .finished => 0

def BulkState.stepsLeft (s : BulkState) : Nat :=
  (s.tasks.map Task.stepsLeft).sum + s.runner.stepsLeft

theorem stepsLeft_start (job : BulkJob) :
    (BulkState.start cfg job).stepsLeft = 3 * cfg.scans.length + 2 := by
  simp only [BulkState.stepsLeft, BulkState.start, List.map_map]
  congr 1
  induction cfg.scans with
  | nil => rfl
  | cons scan scans ih =>
    rw [List.map_cons, List.sum_cons, ih, List.length_cons]
    show 3 + _ = _
    omega

/-- A task that moves on brings the job nearer to its end. -/
theorem stepsLeft_set (htask : s.tasks[i]? = some task) (ht : t.tasks = s.tasks.set i task')
    (hrunner : t.runner = s.runner) (hlt : task'.stepsLeft < task.stepsLeft) :
    t.stepsLeft < s.stepsLeft := by
  have hsum := sum_map_set (b := task') (f := Task.stepsLeft) htask
  simp only [BulkState.stepsLeft, ht, hrunner]
  omega

theorem stepsLeft_runner (htasks : t.tasks = s.tasks)
    (hlt : t.runner.stepsLeft < s.runner.stepsLeft) : t.stepsLeft < s.stepsLeft := by
  simp only [BulkState.stepsLeft, htasks]
  omega

theorem stepsLeft_pos_of_holds (h : task.holds = true) : 0 < task.stepsLeft := by
  cases task with
  | analyzing | archiving => simp [Task.stepsLeft]
  | waiting | skipped | recorded | raised => cases h

/-- Every step of the job takes it nearer to its end, and a cancel request leaves it where it is. -/
theorem Turn.stepsLeft (h : Turn cfg s l t) : t.stepsLeft + l.ofJob.toNat ≤ s.stepsLeft := by
  cases h with
  | launch hrunner => exact stepsLeft_runner rfl (by rw [hrunner]; exact Nat.one_lt_two)
  | skip _ htask => exact stepsLeft_set htask rfl rfl (by decide)
  | pass _ htask => exact stepsLeft_set htask rfl rfl (by decide)
  | archive _ htask => exact stepsLeft_set htask rfl rfl Nat.one_lt_two
  | record _ hends | raise _ hends =>
    obtain ⟨task, htask, hholds⟩ := hends.holds
    have hl : l.ofJob = true := by cases hends <;> rfl
    rw [hl]
    exact stepsLeft_set htask rfl rfl (stepsLeft_pos_of_holds hholds)
  | fail hrunner | stop hrunner | complete hrunner =>
    exact stepsLeft_runner rfl (by rw [hrunner]; exact Nat.one_pos)
  | cancel | cancelEnded | refuse => exact le_refl _

theorem final_iff_stuck : Final cfg s ↔ Stuck (BulkState.step cfg) Label.ofJob s := by
  constructor
  · intro h l hl
    refine h l ?_
    rintro user rfl
    cases hl
  · intro h l hne
    refine h l ?_
    cases l with
    | cancel user => cases hne user rfl
    | launch | pass | analyzed | archived | finish => rfl

/-- Once `run_bulk_scan_job` has ended the status is terminal. -/
def Ended (s : BulkState) : Prop :=
  s.runner = .finished →
    s.job.status = .completed ∨ s.job.status = .failed ∨ s.job.status = .cancelled

theorem Turn.statusEnded (h : Turn cfg s l t) (hs : Ended s) : Ended t := by
  cases h with
  | launch => exact nofun
  | skip | pass | archive | record | raise | cancelEnded | refuse => exact hs
  | fail => exact fun _ => .inr (.inl rfl)
  | stop => exact fun _ => .inr (.inr rfl)
  | complete => exact fun _ => .inl rfl
  | cancel => exact fun _ => .inr (.inr rfl)

/-- A bulk scan comes to its end: from every state of every run, whatever is cancelled, at most
three steps for each target and two for the job are left; they lead to the end, where the status is
terminal and no task is left, and in every other state one of them is enabled. -/
theorem bulk_scan_ends {ls : List Label}
    (hrun : exec (BulkState.step cfg) (.start cfg cfg.queuedJob) ls = some s) :
    ls.countP Label.ofJob + s.stepsLeft ≤ 3 * cfg.scans.length + 2 ∧
    (Stuck (BulkState.step cfg) Label.ofJob s ↔
      s.runner = .finished ∧ s.tasks.all Task.ended = true) ∧
    (s.runner = .finished → s.job.status = .completed ∨ s.job.status = .failed ∨
      s.job.status = .cancelled) ∧
    ∃ ms t, (∀ l ∈ ms, l.ofJob = true) ∧ exec (BulkState.step cfg) s ms = some t ∧
      t.runner = .finished ∧ t.tasks.all Task.ended = true := by
  have S := sound_exec sound_start hrun
  have hinv : ∀ s l t, Sound cfg s → s.step cfg l = some t → Sound cfg t :=
    fun s l t S h => (S.step h).2
  refine ⟨?_, ?_, ?_, ?_⟩
  · rw [← stepsLeft_start cfg.queuedJob]
    exact exec_countP_le (Sound cfg) Label.ofJob BulkState.stepsLeft hinv
      (fun s l t S h => (S.step h).1.stepsLeft) sound_start hrun
  · rw [← final_iff_stuck]
    exact ⟨fun h => h.ended S.tracks, fun h => final_of_ended h.1 h.2⟩
  · refine (exec_invariant (fun s => Sound cfg s ∧ Ended s) ?_ ⟨sound_start, nofun⟩ hrun).2
    rintro s l t ⟨S, hs⟩ hstep
    obtain ⟨hturn, S'⟩ := S.step hstep
    exact ⟨S', hturn.statusEnded hs⟩
  · have hlt : ∀ s l t, Sound cfg s → l.ofJob = true → s.step cfg l = some t →
        t.stepsLeft < s.stepsLeft := by
      intro s l t S hl h
      have hleft := (S.step h).1.stepsLeft
      rwa [hl] at hleft
    obtain ⟨ms, t, hown, hms, hstuck⟩ :=
      exists_stuck (Sound cfg) Label.ofJob BulkState.stepsLeft hinv hlt S
    have S' := sound_exec S hms
    exact ⟨ms, t, hown, hms, (final_iff_stuck.mpr hstuck).ended S'.tracks⟩

/-- A job that is cancelled before it is launched comes to its end as well. -/
theorem bulk_scan_ends_timeout : ∃ s,
    exec (BulkState.step (timeoutConfig "timed out"))
      (.start (timeoutConfig "timed out") (timeoutConfig "timed out").queuedJob)
      [.cancel 1, .launch] = some s ∧
    ∃ ms t, (∀ l ∈ ms, l.ofJob = true) ∧
      exec (BulkState.step (timeoutConfig "timed out")) s ms = some t ∧
      t.runner = .finished ∧ t.tasks.all Task.ended = true := by
  obtain ⟨s, hs⟩ : ∃ s, exec (BulkState.step (timeoutConfig "timed out"))
    (.start (timeoutConfig "timed out") (timeoutConfig "timed out").queuedJob)
    [.cancel 1, .launch] = some s := ⟨_, rfl⟩
  exact ⟨s, hs, (bulk_scan_ends hs).2.2.2⟩

end ThreatScanner.Bulk
