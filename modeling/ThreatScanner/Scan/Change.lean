import ThreatScanner.Scan.Invariant

/-!
# What one step does to one job

`Move` describes a step on the whole state. `Change` is the same description seen from one job: the
job before the step and after it, with the part of the guard that concerns the job. In a state that
satisfies the invariant of the run a step changes a job in one of these ways only (`move_change`),
and the only new job is the one that is submitted (`move_new`).
-/

namespace ThreatScanner.Scan

open ScanState

inductive Change (s : ScanState) (id : JobId) (job : ScanJob) : Label → ScanJob → Prop where
  | keep : Change s id job l job
  | refresh (position size : Option Nat) : Change s id job (.scanStatus id user)
      { job with queuePosition := position, queueSize := size }
  | cancelQueued (hstatus : job.status = .queued) (howner : job.userId = user) :
      Change s id job (.cancelScan id user) job.cancelQueued
  | cancelRunning (hstatus : job.status = .running) (howner : job.userId = user) :
      Change s id job (.cancelScan id user) job.cancelRunning
  | start (hstatus : job.status = .queued) : Change s id job .take job.start
  | announce (hw : s.worker = .busy entry await) (hid : entry.jobId = id)
      (hnext : await.next = some await')
      (hreq : await.checked = true → job.cancelRequested = false) :
      Change s id job .wake (job.announce await')
  | stop (hw : s.worker = .busy entry await) (hid : entry.jobId = id) (step : String) :
      Change s id job l (job.stop step)
  | stopLate (hw : s.worker = .busy entry .exposure) (hid : entry.jobId = id)
      (hreq : job.cancelRequested = true) (step : String) :
      Change s id job .wake ((job.announce .analyze).stop step)
  | fail (hw : s.worker = .busy entry .analyze) (hid : entry.jobId = id) (e : PyError) :
      Change s id job l (job.fail e)
  | failSaving (hw : s.worker = .busy entry .analyze) (hid : entry.jobId = id)
      (hstatus : job.status ≠ .cancelled) (e : PyError) :
      Change s id job l (job.announceSaving.fail e)
  | complete (hw : s.worker = .busy entry .analyze) (hid : entry.jobId = id)
      (hstatus : job.status ≠ .cancelled) (hscan : report.get "scan_id" = .ok (.int scanId)) :
      Change s id job l (job.complete report)

variable {s t : ScanState} {l : Label} {id jobId : JobId} {job job' : ScanJob}

/-- A step that rewrites one job changes that job, and keeps the others. -/
theorem change_modify {f : ScanJob → ScanJob} (hjob : s.job? id = some job)
    (hf : jobId = id → Change s id job l (f job)) :
    ∃ job', (s.modifyJob jobId f).job? id = some job' ∧ Change s id job l job' := by
  by_cases hid : id = jobId
  · exact ⟨f job, Dict.get?_modify_eq_some.mpr (.inl ⟨hid, job, hid ▸ hjob, rfl⟩), hf hid.symm⟩
  · exact ⟨job, Dict.get?_modify_eq_some.mpr (.inr ⟨hid, hjob⟩), .keep⟩

theorem status_ne_of_status? (hjob : s.job? id = some job)
    (h : s.status? id ≠ some .cancelled) : job.status ≠ .cancelled := by
  intro hstatus
  exact h (by rw [status?, hjob, Option.map_some, hstatus])

theorem move_change (H : Inv s) (h : Move s l t) (hjob : s.job? id = some job) :
    ∃ job', t.job? id = some job' ∧ Change s id job l job' := by
  cases h with
  | same | startup | skip => exact ⟨job, hjob, .keep⟩
  | submit hq fresh position =>
    exact ⟨job, Dict.get?_insertNew_of_some fresh hjob, .keep⟩
  | refresh position size =>
    refine change_modify hjob fun hid => ?_
    subst hid
    exact .refresh position size
  | cancelQueued hjob' hstatus howner =>
    refine change_modify hjob fun hid => ?_
    subst hid
    cases hjob.symm.trans hjob'
    exact .cancelQueued hstatus howner
  | cancelRunning hjob' hstatus howner =>
    refine change_modify hjob fun hid => ?_
    subst hid
    cases hjob.symm.trans hjob'
    exact .cancelRunning hstatus howner
  | refuse hw hq hjob' hreq =>
    obtain ⟨job'', hjob'', _, hreq'⟩ := H.queued_head hq
    cases hjob'.symm.trans hjob''
    rw [hreq] at hreq'
    cases hreq'
  | start hw hq =>
    obtain ⟨job', hjob', hstatus, _⟩ := H.queued_head hq
    refine change_modify hjob fun hid => ?_
    subst hid
    cases hjob.symm.trans hjob'
    exact .start hstatus
  | advance hw hnext _ hreq =>
    refine change_modify hjob fun hid => .announce hw hid hnext fun hc => ?_
    subst hid
    rw [← cancelRequested_eq hjob]
    exact hreq hc
  | analyze hw hreq =>
    refine change_modify hjob fun hid => .announce hw hid rfl fun _ => ?_
    subst hid
    rwa [← cancelRequested_eq hjob]
  | stop hw => exact change_modify hjob fun hid => .stop hw hid _
  | stopBeforeAnalysis hw hreq =>
    refine change_modify hjob fun hid => .stopLate hw hid ?_ _
    subst hid
    rwa [← cancelRequested_eq hjob]
  | stopAfterAnalysis hw => exact change_modify hjob fun hid => .stop hw hid _
  | failAnalysis hw e => exact change_modify hjob fun hid => .fail hw hid e
  | failReport hw _ _ e => exact change_modify hjob fun hid => .fail hw hid e
  | failSave hw _ hne e | failAlert hw _ hne e =>
    refine change_modify hjob fun hid => .failSaving hw hid ?_ e
    subst hid
    exact status_ne_of_status? hjob hne
  | complete hw _ hne hscan =>
    refine change_modify hjob fun hid => .complete hw hid ?_ hscan
    subst hid
    exact status_ne_of_status? hjob hne

/-- The only new job is the one that is submitted. -/
theorem move_new (h : Move s l t) (hnone : s.job? id = none) (hjob : t.job? id = some job) :
    ∃ data user position, l = .scanAsync id data user ∧
      job = { newJob id data user with queuePosition := position } := by
  have hmodify : ∀ {jobId : JobId} {f : ScanJob → ScanJob},
      (s.modifyJob jobId f).job? id ≠ some job := by
    intro jobId f hsome
    rcases Dict.get?_modify_eq_some.mp hsome with ⟨rfl, job', hjob', _⟩ | ⟨_, hjob'⟩
    · rw [job?, hjob'] at hnone; cases hnone
    · rw [job?, hjob'] at hnone; cases hnone
  cases h with
  | same | startup | skip => rw [job?] at hnone hjob; rw [hjob] at hnone; cases hnone
  | submit hq fresh position =>
    rw [job?, Dict.get?_insertNew] at hjob
    split at hjob
    · rename_i hid
      subst hid
      cases hjob
      exact ⟨_, _, position, rfl, rfl⟩
    · rw [job?, hjob] at hnone; cases hnone
  | _ => exact (hmodify hjob).elim

/-- The job a step leaves was there before, or is new. -/
theorem move_change_back (H : Inv s) (h : Move s l t) (hjob : t.job? id = some job') :
    (∃ job, s.job? id = some job ∧ Change s id job l job') ∨
    ∃ data user position, l = .scanAsync id data user ∧
      job' = { newJob id data user with queuePosition := position } := by
  cases hs : s.job? id with
  | none => exact .inr (move_new h hs hjob)
  | some job =>
    obtain ⟨job'', hjob'', hchange⟩ := move_change H h hs
    cases hjob.symm.trans hjob''
    exact .inl ⟨job, rfl, hchange⟩

theorem Change.userId_eq (h : Change s id job l job') : job'.userId = job.userId := by
  cases h <;> rfl

end ThreatScanner.Scan
