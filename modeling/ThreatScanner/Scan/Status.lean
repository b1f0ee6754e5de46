import ThreatScanner.Scan.Invariant

/-!
# Terminal statuses

`completed`, `failed` and `cancelled` are meant to be final. A step changes a terminal status in
one case only: `analyze` raises for a job that was cancelled while it ran, and the handler of
`run_scan_job` writes `failed` without reading the status, where the path of a returning
`analyze` checks for a cancellation first.
-/

namespace ThreatScanner.Scan

open ScanState Transition

variable {id jobId : JobId} {status : JobStatus}

/-- The step resumes `run_scan_job` with an exception of `analyze`, for a cancelled job. -/
def AnalyzeRaisesCancelled (s : ScanState) : Label → Prop
  | .finish (.raised _) _ _ =>
    ∃ entry, s.worker = .busy entry .analyze ∧ s.status? entry.jobId = some .cancelled
  | _ => False

/-- No state of the run has a job with a terminal status that differs in a later state. -/
def TerminalAbsorbing (ls : List Label) : Prop :=
  ∀ ls₁ ls₂ ls₃ s₁ s₂ id status, ls = ls₁ ++ ls₂ ++ ls₃ → run ls₁ = some s₁ →
    exec step s₁ ls₂ = some s₂ → s₁.status? id = some status → status.terminal = true →
    s₂.status? id = some status

theorem status?_eq_some {s : ScanState} :
    s.status? id = some status ↔ ∃ job, s.job? id = some job ∧ job.status = status := by
  rw [status?, Option.map_eq_some_iff]

/-- Rewriting a job whose status is not terminal, or is left as it is, keeps terminal statuses. -/
theorem status?_modifyJob {s : ScanState} {f : ScanJob → ScanJob}
    (hs : s.status? id = some status) (ht : status.terminal = true)
    (hf : ∀ job, s.job? jobId = some job → job.status.terminal = true →
      (f job).status = job.status) :
    (s.modifyJob jobId f).status? id = some status := by
  obtain ⟨job, hjob, rfl⟩ := status?_eq_some.mp hs
  rw [status?_eq_some]
  by_cases hid : id = jobId
  · subst hid
    exact ⟨f job, Dict.get?_modify_eq_some.mpr (.inl ⟨rfl, job, hjob, rfl⟩), hf job hjob ht⟩
  · exact ⟨job, Dict.get?_modify_eq_some.mpr (.inr ⟨hid, hjob⟩), rfl⟩

/-- The job the worker holds has one terminal status at most, `cancelled`. -/
theorem Inv.held_terminal {s : ScanState} {entry : QueueEntry} {job : ScanJob} (H : Inv s)
    (hw : s.worker = .busy entry await) (hjob : s.job? entry.jobId = some job)
    (ht : job.status.terminal = true) : job.status = .cancelled := by
  obtain ⟨job', hjob', h⟩ := H.held hw
  cases hjob.symm.trans hjob'
  rcases h with h | h
  · rw [h] at ht; cases ht
  · exact h

/-- Every step but an exception of `analyze` for a cancelled job keeps terminal statuses. -/
theorem move_terminal {s t : ScanState} {l : Label} (H : Inv s) (h : Move s l t)
    (hl : ¬AnalyzeRaisesCancelled s l) (hs : s.status? id = some status)
    (ht : status.terminal = true) : t.status? id = some status := by
  cases h with
  | same | startup | skip => exact hs
  | submit hq fresh position =>
    obtain ⟨job, hjob, rfl⟩ := status?_eq_some.mp hs
    exact status?_eq_some.mpr ⟨job, Dict.get?_insertNew_of_some fresh hjob, rfl⟩
  | refresh | advance | analyze => exact status?_modifyJob hs ht fun _ _ _ => rfl
  | cancelQueued hjob hstatus | cancelRunning hjob hstatus =>
    refine status?_modifyJob hs ht fun job' hjob' ht' => ?_
    cases hjob.symm.trans hjob'
    rw [hstatus] at ht'
    cases ht'
  | refuse hw hq hjob hreq =>
    obtain ⟨job', hjob', _, hreq'⟩ := H.queued_head hq
    cases hjob.symm.trans hjob'
    rw [hreq] at hreq'
    cases hreq'
  | start hw hq =>
    obtain ⟨job, hjob, hstatus, _⟩ := H.queued_head hq
    refine status?_modifyJob hs ht fun job' hjob' ht' => ?_
    cases hjob.symm.trans hjob'
    rw [hstatus] at ht'
    cases ht'
  | stop hw | stopBeforeAnalysis hw | stopAfterAnalysis hw =>
    refine status?_modifyJob hs ht fun job hjob ht' => ?_
    rw [H.held_terminal hw hjob ht']
    rfl
  | failAnalysis hw e =>
    refine status?_modifyJob hs ht fun job hjob ht' => ?_
    have hc := H.held_terminal hw hjob ht'
    exact (hl ⟨_, hw, status?_eq_some.mpr ⟨job, hjob, hc⟩⟩).elim
  | failReport hw _ hne | failSave hw _ hne | failAlert hw _ hne | complete hw _ hne =>
    refine status?_modifyJob hs ht fun job hjob ht' => ?_
    have hc := H.held_terminal hw hjob ht'
    exact (hne (status?_eq_some.mpr ⟨job, hjob, hc⟩)).elim

/-- An exception of `analyze` for a cancelled job makes it failed. -/
theorem raise_cancelled {s : ScanState} {l : Label} (h : AnalyzeRaisesCancelled s l) :
    ∃ id t, s.status? id = some .cancelled ∧ step s l = some t ∧ t.status? id = some .failed := by
  cases l with
  | finish outcome =>
    cases outcome with
    | raised e =>
      obtain ⟨entry, hw, hc⟩ := h
      obtain ⟨job, hjob, _⟩ := status?_eq_some.mp hc
      refine ⟨entry.jobId, failRun s entry.jobId e, hc, ?_, ?_⟩
      · simp only [step, hw]; rfl
      · rw [status?_eq_some]
        exact ⟨_, Dict.get?_modify_eq_some.mpr (.inl ⟨rfl, job, hjob, rfl⟩), rfl⟩
    | returned => exact h.elim
  | _ => exact h.elim

/-- Terminal statuses are absorbing in exactly the runs in which `analyze` does not raise for a
job that is already cancelled. -/
theorem terminalAbsorbing_iff (ls : List Label) :
    TerminalAbsorbing ls ↔ AllSteps step (fun s l => ¬AnalyzeRaisesCancelled s l) init ls := by
  constructor
  · intro habs
    by_contra hnot
    obtain ⟨ls₁, l, ls₂, s, rfl, hs, hl⟩ := AllSteps.exists_not hnot
    rw [not_not] at hl
    obtain ⟨id, t, hc, ht, hf⟩ := raise_cancelled hl
    have := habs ls₁ [l] ls₂ s t id .cancelled (by simp) hs (by rwa [exec_singleton]) hc rfl
    rw [hf] at this
    cases this
  · rintro hall ls₁ ls₂ ls₃ s₁ s₂ id status rfl h₁ h₂ hs ht
    rw [AllSteps.append, AllSteps.append] at hall
    refine (exec_invariant_of (fun s => Inv s ∧ s.status? id = some status) ?_ ⟨run_inv h₁, hs⟩
      (hall.1.2 s₁ h₁) h₂).2
    rintro s l t ⟨H, hs⟩ hl hstep
    exact ⟨step_inv H hstep, move_terminal H (step_move hstep) hl hs ht⟩

/-- A scan that is cancelled while `analyze` runs, which then raises. -/
def cancelThenRaise : List Label :=
  [.startup, .scanAsync 1 { target := "example.com" } 7, .take, .wake, .wake, .wake, .wake, .wake,
    .cancelScan 1 7]

theorem cancelled_becomes_failed :
    ¬TerminalAbsorbing (cancelThenRaise ++
      [.finish (.raised ⟨"connection reset"⟩) (.ok 1) (.ok ())]) := by
  have hc : (run cancelThenRaise).bind (·.status? 1) = some .cancelled := by decide
  have hf : (run (cancelThenRaise ++
      [.finish (.raised ⟨"connection reset"⟩) (.ok 1) (.ok ())])).bind (·.status? 1) =
      some .failed := by decide
  obtain ⟨s, hs, hcs⟩ := Option.bind_eq_some_iff.mp hc
  obtain ⟨t, ht, hft⟩ := Option.bind_eq_some_iff.mp hf
  obtain ⟨s', hs', hst⟩ := exec_append_some.mp ht
  cases hs.symm.trans hs'
  intro habs
  have := habs _ _ [] s t 1 .cancelled (by simp) hs hst hcs rfl
  rw [hft] at this
  cases this

end ThreatScanner.Scan
