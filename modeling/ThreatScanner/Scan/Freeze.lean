import ThreatScanner.Scan.Progress
import ThreatScanner.Scan.Status

/-!
# A cancelled job and its progress

`cancel_scan` on a running job writes `cancelled` at once, and `run_scan_job` is meant to stop at
its next suspension point. It reads `cancel_requested` before it writes the next progress after the
first two sleeps only: after the third and the fourth there is no checkpoint, and after the fifth
the progress is written first. A job that is cancelled in one of these three sleeps goes on.
-/

namespace ThreatScanner.Scan

open ScanState Transition

variable {s t : ScanState} {l : Label} {id : JobId} {job job' : ScanJob}

/-- The sleeps after which `run_scan_job` writes before it reads `cancel_requested`. -/
def Await.writesFirst : Await → Bool
  | ssl | headers | exposure => true
  | preparation | dns | analyze => false

/-- The step resumes `run_scan_job` from one of these sleeps, for a cancelled job. -/
def ResumesCancelled (s : ScanState) : Label → Prop
  | .wake => ∃ entry await, s.worker = .busy entry await ∧ await.writesFirst = true ∧
      s.status? entry.jobId = some .cancelled
  | _ => False

/-- No state of the run has a cancelled job whose progress or phase differs in a later state. -/
def CancelledFrozen (ls : List Label) : Prop :=
  ∀ ls₁ ls₂ ls₃ s₁ s₂ id job, ls = ls₁ ++ ls₂ ++ ls₃ → run ls₁ = some s₁ →
    exec step s₁ ls₂ = some s₂ → s₁.job? id = some job → job.status = .cancelled →
    ∃ job', s₂.job? id = some job' ∧ job'.progress = job.progress ∧ job'.phase = job.phase

/-- A job that was cancelled. -/
def ScanJob.over (job : ScanJob) : Prop := job.status = .cancelled ∨ job.status = .failed

/-- An await that is followed by another without a checkpoint before the progress is written. -/
theorem Await.writesFirst_of_not_checked {await await' : Await} (hnext : await.next = some await')
    (h : await.checked = false) : await.writesFirst = true := by
  cases await with
  | ssl | headers | exposure => rfl
  | preparation | dns => cases h
  | analyze => cases hnext

/-- Every other step leaves a job that was cancelled so, with its progress and its phase. -/
theorem Change.frozen (H : Inv s) (hjob : s.job? id = some job) (hover : job.over)
    (hl : ¬ResumesCancelled s l) (h : Change s id job l job') :
    job'.over ∧ job'.progress = job.progress ∧ job'.phase = job.phase := by
  -- a job that was cancelled and is held by the worker is still cancelled
  have hheld : ∀ {entry await}, s.worker = .busy entry await → entry.jobId = id →
      job.status = .cancelled := by
    rintro entry await hw rfl
    obtain ⟨job', hjob', hstatus⟩ := H.held hw
    cases hjob.symm.trans hjob'
    rcases hstatus with h | h
    · rcases hover with h' | h' <;> simp [h] at h'
    · exact h
  have hresumes : ∀ {entry await}, s.worker = .busy entry await → entry.jobId = id →
      await.writesFirst = true → ResumesCancelled s .wake := by
    intro entry await hw hid hfirst
    refine ⟨entry, await, hw, hfirst, ?_⟩
    rw [status?, hid, hjob, Option.map_some, hheld hw hid]
  cases h with
  | keep => exact ⟨hover, rfl, rfl⟩
  | refresh => exact ⟨hover, rfl, rfl⟩
  | cancelQueued hstatus | cancelRunning hstatus | start hstatus =>
    rcases hover with h | h <;> simp [hstatus] at h
  | @announce entry await await' hw hid hnext hreq =>
    have hc := hheld hw hid
    cases hchecked : await.checked with
    | true =>
      have := hreq hchecked
      rw [H.cancelled hjob hc] at this
      cases this
    | false =>
      exact (hl (hresumes hw hid (Await.writesFirst_of_not_checked hnext hchecked))).elim
  | stop => exact ⟨.inl rfl, rfl, rfl⟩
  | stopLate hw hid => exact (hl (hresumes hw hid rfl)).elim
  | fail => exact ⟨.inr rfl, rfl, rfl⟩
  | failSaving hw hid hne | complete hw hid hne => exact (hne (hheld hw hid)).elim

/-- A step that resumes the run of a cancelled job writes more progress. -/
theorem resumed_progress (H : Inv s) (G : Gauge s) (h : ResumesCancelled s l) :
    ∃ id job t job', s.job? id = some job ∧ job.status = .cancelled ∧ step s l = some t ∧
      t.job? id = some job' ∧ job.progress < job'.progress := by
  cases l with
  | wake =>
    obtain ⟨entry, await, hw, hfirst, hstatus⟩ := h
    obtain ⟨job, hjob, hc⟩ := status?_eq_some.mp hstatus
    have hreq : s.cancelRequested entry.jobId = true := by
      rw [cancelRequested_eq hjob, H.cancelled hjob hc]
    have hprogress := G.held hw hjob
    have hself : ∀ {f : ScanJob → ScanJob},
        (s.modifyJob entry.jobId f).job? entry.jobId = some (f job) :=
      Dict.get?_modify_eq_some.mpr (.inl ⟨rfl, job, hjob, rfl⟩)
    cases await with
    | preparation | dns | analyze => cases hfirst
    | ssl =>
      refine ⟨entry.jobId, job, { s.modifyJob entry.jobId (·.announce .headers) with
        worker := .busy entry .headers }, job.announce .headers, hjob, hc, ?_, hself, ?_⟩
      · simp only [step, hw, wakeRun]
        rfl
      · rw [hprogress]
        exact show 35 < 50 by decide
    | headers =>
      refine ⟨entry.jobId, job, { s.modifyJob entry.jobId (·.announce .exposure) with
        worker := .busy entry .exposure }, job.announce .exposure, hjob, hc, ?_, hself, ?_⟩
      · simp only [step, hw, wakeRun]
        rfl
      · rw [hprogress]
        exact show 50 < 65 by decide
    | exposure =>
      refine ⟨entry.jobId, job, { s.modifyJob entry.jobId fun job =>
          (job.announce .analyze).stop "Scan cancelled before analysis" with worker := .waiting },
        (job.announce .analyze).stop "Scan cancelled before analysis", hjob, hc, ?_, hself, ?_⟩
      · simp only [step, hw, wakeRun, cancelRequested_updateJobProgress, hreq, if_true]
        simp only [stopRun, updateJobProgress, modifyJob, Dict.modify_modify]
        rfl
      · rw [hprogress]
        exact show 65 < 80 by decide
  | _ => exact h.elim

/-- Cancelled jobs keep their progress and their phase in exactly the runs in which none of them is
resumed from its third, fourth or fifth sleep. -/
theorem cancelledFrozen_iff (ls : List Label) :
    CancelledFrozen ls ↔ AllSteps step (fun s l => ¬ResumesCancelled s l) init ls := by
  constructor
  · intro hfrozen
    by_contra hnot
    obtain ⟨ls₁, l, ls₂, s, rfl, hs, hl⟩ := AllSteps.exists_not hnot
    rw [not_not] at hl
    obtain ⟨id, job, t, job', hjob, hc, ht, hjob', hlt⟩ :=
      resumed_progress (run_inv hs) (run_gauge hs) hl
    obtain ⟨job'', hjob'', hprogress, -⟩ :=
      hfrozen ls₁ [l] ls₂ s t id job (by simp) hs (by rwa [exec_singleton]) hjob hc
    cases hjob'.symm.trans hjob''
    rw [hprogress] at hlt
    exact lt_irrefl _ hlt
  · rintro hall ls₁ ls₂ ls₃ s₁ s₂ id job rfl h₁ h₂ hjob hc
    rw [AllSteps.append, AllSteps.append] at hall
    have hend := exec_invariant_of (fun s => Inv s ∧ ∃ job', s.job? id = some job' ∧ job'.over ∧
      job'.progress = job.progress ∧ job'.phase = job.phase) ?_
      ⟨run_inv h₁, job, hjob, .inl hc, rfl, rfl⟩ (hall.1.2 s₁ h₁) h₂
    · obtain ⟨-, job', hjob', -, hsame⟩ := hend
      exact ⟨job', hjob', hsame⟩
    · rintro s l t ⟨H, job', hjob', hover, hprogress, hphase⟩ hl hstep
      obtain ⟨job'', hjob'', hchange⟩ := move_change H (step_move hstep) hjob'
      obtain ⟨hover', hprogress', hphase'⟩ := hchange.frozen H hjob' hover hl
      exact ⟨step_inv H hstep, job'', hjob'', hover', hprogress'.trans hprogress,
        hphase'.trans hphase⟩

/-- A scan that is cancelled in its third sleep, and goes on. -/
def cancelInThirdSleep : List Label :=
  [.startup, .scanAsync 1 { target := "example.com" } 7, .take, .wake, .wake, .cancelScan 1 7]

theorem cancelled_progress_moves : ¬CancelledFrozen (cancelInThirdSleep ++ [.wake]) := by
  have hc : ((run cancelInThirdSleep).bind (·.job? 1)).map (fun job => (job.status, job.progress)) =
      some (.cancelled, 35) := by decide
  have hm : ((run (cancelInThirdSleep ++ [.wake])).bind (·.job? 1)).map (·.progress) =
      some 50 := by decide
  obtain ⟨job, hjob, hc⟩ := Option.map_eq_some_iff.mp hc
  obtain ⟨s, hs, hjob⟩ := Option.bind_eq_some_iff.mp hjob
  obtain ⟨moved, hmoved, hm⟩ := Option.map_eq_some_iff.mp hm
  obtain ⟨t, ht, hmoved⟩ := Option.bind_eq_some_iff.mp hmoved
  obtain ⟨s', hs', hst⟩ := exec_append_some.mp ht
  cases hs.symm.trans hs'
  rw [Prod.mk.injEq] at hc
  intro hfrozen
  obtain ⟨job', hjob', hprogress, -⟩ :=
    hfrozen _ _ [] s t 1 job (by simp) hs hst hjob hc.1
  cases hmoved.symm.trans hjob'
  rw [hm, hc.2] at hprogress
  cases hprogress

end ThreatScanner.Scan
