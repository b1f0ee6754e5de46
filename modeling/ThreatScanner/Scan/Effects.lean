import ThreatScanner.Scan.Queue

/-!
# Analyses, saved rows and alerts

What the system does for a job outside its table: `analyze` is called once at most and not after
a cancel was accepted, and a row of `scans` is saved, with the alert for a high risk, exactly when
the job completes. `Account` is the invariant: it gives the three counts of a job from its record
and from where the worker is.
-/

namespace ThreatScanner.Scan

open ScanState Transition

variable {id jobId : JobId}

namespace ScanState

/-- How often `analyze` was called for the job. -/
def analyzeCalls (s : ScanState) (jobId : JobId) : Nat :=
  s.effects.countP fun
    | .analyze id => id = jobId
    | _ => false

/-- How many rows of `scans` were saved for the job. -/
def savedRows (s : ScanState) (jobId : JobId) : Nat :=
  s.effects.countP fun
    | .saveScan id _ => id = jobId
    | _ => false

/-- How often `send_discord_alert` was called for the job. -/
def alerts (s : ScanState) (jobId : JobId) : Nat :=
  s.effects.countP fun
    | .discordAlert id _ => id = jobId
    | _ => false

/-- The result of a job, when it is completed. -/
def completed? (s : ScanState) (jobId : JobId) : Option (Option Json) :=
  (s.job? jobId).bind fun job => if job.status = .completed then some job.result else none

/-- The job is completed with a report of risk `HIGH` or `CRITICAL`. -/
def alertDue (s : ScanState) (jobId : JobId) : Bool :=
  (s.completed? jobId).any (·.any fun report => (alertRisk report).isSome)

end ScanState

/-- `send_discord_alert` returns, if it is called. -/
def Label.alertReturns : Label → Prop
  | .finish _ _ (.error _) => False
  | _ => True

/-! ## Rows and alerts -/

/-- Rewriting a job that is not completed, without completing it. -/
theorem completed?_modify {s : ScanState} {f : ScanJob → ScanJob}
    (queue : Option (List QueueEntry)) (worker : Worker) (effects : List Effect)
    (hs : ∀ job, s.job? jobId = some job → job.status ≠ .completed)
    (hf : ∀ job, job.status ≠ .completed → (f job).status ≠ .completed) (id : JobId) :
    completed? ⟨s.scanJobs.modify jobId f, queue, worker, effects⟩ id = s.completed? id := by
  simp only [completed?, job?, Dict.get?_modify]
  split
  · rename_i hid
    subst hid
    cases hjob : s.scanJobs.get? id with
    | none => rfl
    | some job => simp [hs job hjob, hf job (hs job hjob)]
  · rfl

theorem Inv.held_not_completed {s : ScanState} {entry : QueueEntry} (H : Inv s)
    (hw : s.worker = .busy entry await) {job : ScanJob} (hjob : s.job? entry.jobId = some job) :
    job.status ≠ .completed := by
  obtain ⟨job', hjob', h⟩ := H.held hw
  cases hjob.symm.trans hjob'
  rcases h with h | h <;> simp [h]

theorem savedRows_append (s : ScanState) (jobs : Dict JobId ScanJob)
    (queue : Option (List QueueEntry)) (worker : Worker) (es : List Effect) (id : JobId) :
    savedRows ⟨jobs, queue, worker, s.effects ++ es⟩ id =
      s.savedRows id + savedRows ⟨jobs, queue, worker, es⟩ id := by
  simp only [savedRows, List.countP_append]

theorem alerts_append (s : ScanState) (jobs : Dict JobId ScanJob)
    (queue : Option (List QueueEntry)) (worker : Worker) (es : List Effect) (id : JobId) :
    alerts ⟨jobs, queue, worker, s.effects ++ es⟩ id =
      s.alerts id + alerts ⟨jobs, queue, worker, es⟩ id := by
  simp only [alerts, List.countP_append]

/-- A step completes a job, with one row and the alert that is due, or it leaves the completed
jobs, the rows and the alerts as they are. -/
inductive Saves (s t : ScanState) : Prop where
  | none (hcompleted : ∀ id, t.completed? id = s.completed? id)
      (hrows : ∀ id, t.savedRows id = s.savedRows id) (halerts : ∀ id, t.alerts id = s.alerts id)
  | completes (jobId : JobId) (report : Json) (hbefore : s.completed? jobId = none)
      (hafter : t.completed? jobId = some (some report))
      (hother : ∀ id, id ≠ jobId → t.completed? id = s.completed? id)
      (hrows : ∀ id, t.savedRows id = s.savedRows id + if id = jobId then 1 else 0)
      (halerts : ∀ id, t.alerts id =
        s.alerts id + if id = jobId ∧ (alertRisk report).isSome then 1 else 0)

theorem SaveEffects.savedRows {es : List Effect} (h : SaveEffects jobId report es)
    (jobs : Dict JobId ScanJob) (queue : Option (List QueueEntry)) (worker : Worker) (id : JobId) :
    savedRows ⟨jobs, queue, worker, es⟩ id = if id = jobId then 1 else 0 := by
  cases h <;> simp [ScanState.savedRows, List.countP_cons, eq_comm]

theorem SaveEffects.alerts {es : List Effect} (h : SaveEffects jobId report es)
    (jobs : Dict JobId ScanJob) (queue : Option (List QueueEntry)) (worker : Worker) (id : JobId) :
    alerts ⟨jobs, queue, worker, es⟩ id =
      if id = jobId ∧ (alertRisk report).isSome then 1 else 0 := by
  cases h with
  | silent scanId hrisk => simp [ScanState.alerts, hrisk]
  | alert scanId risk hrisk => simp [ScanState.alerts, List.countP_cons, hrisk, eq_comm]

theorem move_saves {s t : ScanState} {l : Label} (H : Inv s) (h : Move s l t)
    (hl : l.alertReturns) : Saves s t := by
  cases h with
  | same | startup | skip => exact .none (fun _ => rfl) (fun _ => rfl) fun _ => rfl
  | submit hq fresh position =>
    refine .none (fun id => ?_) (fun _ => rfl) fun _ => rfl
    simp only [completed?, job?, Dict.get?_insertNew]
    split
    · rename_i hid
      subst hid
      rw [Dict.get?_eq_none.mpr fresh]
      rfl
    · rfl
  | refresh =>
    refine .none (fun id => ?_) (fun _ => rfl) fun _ => rfl
    simp only [completed?, job?, modifyJob_scanJobs, Dict.get?_modify]
    split
    · rename_i hid
      subst hid
      cases s.scanJobs.get? id <;> rfl
    · rfl
  | cancelQueued hjob hstatus | cancelRunning hjob hstatus =>
    refine .none (completed?_modify _ _ _ (fun job' hjob' => ?_) fun _ _ h => by cases h)
      (fun _ => rfl) fun _ => rfl
    cases hjob.symm.trans hjob'
    simp [hstatus]
  | refuse hw hq | start hw hq =>
    obtain ⟨job, hjob, hstatus, _⟩ := H.queued_head hq
    refine .none (completed?_modify _ _ _ (fun job' hjob' => ?_) fun _ _ h => by cases h)
      (fun _ => ?_) fun _ => ?_
    · cases hjob.symm.trans hjob'
      simp [hstatus]
    · simp [savedRows]
    · simp [alerts]
  | advance hw =>
    exact .none (completed?_modify _ _ _ (fun _ hjob => H.held_not_completed hw hjob)
      fun _ h => h) (fun _ => rfl) fun _ => rfl
  | analyze hw =>
    refine .none (completed?_modify _ _ _ (fun _ hjob => H.held_not_completed hw hjob)
      fun _ h => h) (fun _ => ?_) fun _ => ?_
    · simp [savedRows]
    · simp [alerts]
  | stop hw | stopBeforeAnalysis hw | stopAfterAnalysis hw | failAnalysis hw | failReport hw
  | failSave hw =>
    exact .none (completed?_modify _ _ _ (fun _ hjob => H.held_not_completed hw hjob)
      fun _ _ h => by cases h) (fun _ => rfl) fun _ => rfl
  | failAlert => exact hl.elim
  | complete hw hreq hstatus hscan hes =>
    rename_i entry report _ _ _ _ _
    obtain ⟨job, hjob, _⟩ := H.held hw
    have hne := H.held_not_completed hw hjob
    refine .completes entry.jobId report ?_ ?_ (fun id hid => ?_) (fun id => ?_) fun id => ?_
    · simp only [completed?, hjob, Option.bind_some, if_neg hne]
    · have hjob : s.scanJobs.get? entry.jobId = some job := hjob
      simp only [completed?, job?, modifyJob_scanJobs, Dict.get?_modify_self, hjob]
      rfl
    · simp only [completed?, job?, modifyJob_scanJobs, Dict.get?_modify_of_ne hid]
    · rw [savedRows_append, hes.savedRows]
    · rw [alerts_append, hes.alerts]

/-- The rows and alerts of every job, read off its record. -/
structure Account (s : ScanState) : Prop where
  rows : ∀ id, s.savedRows id = if (s.completed? id).isSome then 1 else 0
  alerts : ∀ id, s.alerts id = if s.alertDue id then 1 else 0

theorem init_account : Account init := ⟨fun _ => rfl, fun _ => rfl⟩

theorem Saves.account {s t : ScanState} (h : Saves s t) (hs : Account s) : Account t := by
  cases h with
  | none hcompleted hrows halerts =>
    constructor
    · intro id
      rw [hrows, hcompleted]
      exact hs.rows id
    · intro id
      rw [halerts, alertDue, hcompleted]
      exact hs.alerts id
  | completes jobId report hbefore hafter hother hrows halerts =>
    constructor
    · intro id
      rw [hrows, hs.rows]
      by_cases hid : id = jobId
      · subst hid
        simp [hbefore, hafter]
      · rw [hother id hid, if_neg hid, Nat.add_zero]
    · intro id
      rw [halerts, hs.alerts]
      by_cases hid : id = jobId
      · subst hid
        simp [alertDue, hbefore, hafter]
      · have hnot : ¬(id = jobId ∧ (alertRisk report).isSome = true) := fun h => hid h.1
        rw [alertDue, alertDue, hother id hid, if_neg hnot, Nat.add_zero]

theorem run_account {s : ScanState} {ls : List Label} (hrun : run ls = some s)
    (halert : ∀ l ∈ ls, l.alertReturns) : Account s := by
  refine (exec_invariant_of (fun s => Inv s ∧ Account s) ?_ ⟨init_inv, init_account⟩
    (AllSteps.of_forall halert) hrun).2
  rintro s l t ⟨H, hs⟩ hl hstep
  exact ⟨step_inv H hstep, (move_saves H (step_move hstep) hl).account hs⟩

/-! ## Analyses -/

/-- The analysis of the job was not started: it waits, or the worker is at an earlier await. -/
def BeforeAnalysis (s : ScanState) (jobId : JobId) : Prop :=
  ∀ job, s.job? jobId = some job → job.status = .queued ∨
    ∃ entry await, s.worker = .busy entry await ∧ entry.jobId = jobId ∧ await ≠ .analyze

/-- A step calls `analyze` for a job whose cancel was not requested and that it was not called for,
or it calls it for none. -/
inductive Analyses (s t : ScanState) : Prop where
  | none (hcalls : ∀ id, t.analyzeCalls id = s.analyzeCalls id)
      (hbefore : ∀ id, BeforeAnalysis t id → BeforeAnalysis s id)
  | calls (jobId : JobId) (hreq : s.cancelRequested jobId = false)
      (hcalls : ∀ id, t.analyzeCalls id = s.analyzeCalls id + if id = jobId then 1 else 0)
      (hstart : BeforeAnalysis s jobId) (hafter : ¬BeforeAnalysis t jobId)
      (hbefore : ∀ id, id ≠ jobId → BeforeAnalysis t id → BeforeAnalysis s id)

/-- A job that is not rewritten, while the worker stays where it is. -/
theorem BeforeAnalysis.of_modify {s t : ScanState} {f : ScanJob → ScanJob}
    (h : BeforeAnalysis t id) (hjobs : t.scanJobs = s.scanJobs.modify jobId f)
    (hworker : t.worker = s.worker) (hself : BeforeAnalysis t jobId → BeforeAnalysis s jobId) :
    BeforeAnalysis s id := by
  by_cases hid : id = jobId
  · rw [hid] at h ⊢
    exact hself h
  · intro job hjob
    rw [← hworker]
    exact h job (by rw [job?, hjobs]; exact Dict.get?_modify_eq_some.mpr (.inr ⟨hid, hjob⟩))

/-- A job that the worker does not go to or come from. -/
theorem BeforeAnalysis.of_ne {s t : ScanState} {f : ScanJob → ScanJob}
    (h : BeforeAnalysis t id) (hjobs : t.scanJobs = s.scanJobs.modify jobId f)
    (hworker : t.worker = .waiting ∨ ∃ entry await, t.worker = .busy entry await ∧
      entry.jobId = jobId) (hid : id ≠ jobId) : BeforeAnalysis s id := by
  intro job hjob
  have hjob' : t.job? id = some job := by
    rw [job?, hjobs]
    exact Dict.get?_modify_eq_some.mpr (.inr ⟨hid, hjob⟩)
  rcases h job hjob' with h | ⟨entry, await, hw, hheld, _⟩
  · exact .inl h
  · rcases hworker with hw' | ⟨entry', _, hw', hheld'⟩
    · rw [hw] at hw'
      cases hw'
    · rw [hw] at hw'
      cases hw'
      exact (hid (hheld.symm.trans hheld')).elim

/-- The worker lets a job go. -/
theorem BeforeAnalysis.of_release {s t : ScanState} {entry : QueueEntry} {f : ScanJob → ScanJob}
    (h : BeforeAnalysis t id) (H : Inv s) (hw : s.worker = .busy entry await)
    (hjobs : t.scanJobs = s.scanJobs.modify entry.jobId f) (hworker : t.worker = .waiting)
    (hf : ∀ job, (f job).status ≠ .queued) : BeforeAnalysis s id := by
  by_cases hid : id = entry.jobId
  · obtain ⟨job, hjob, _⟩ := H.held hw
    have hjob' : t.job? id = some (f job) := by
      rw [job?, hjobs]
      exact Dict.get?_modify_eq_some.mpr (.inl ⟨hid, job, hjob, rfl⟩)
    rcases h (f job) hjob' with h | ⟨_, _, hw', _⟩
    · exact (hf job h).elim
    · rw [hworker] at hw'
      cases hw'
  · exact h.of_ne hjobs (.inl hworker) hid

theorem Inv.beforeAnalysis_head {s : ScanState} {entry : QueueEntry} (H : Inv s)
    (hq : s.scanQueue = some (entry :: rest)) : BeforeAnalysis s entry.jobId := by
  intro job hjob
  obtain ⟨job', hjob', hstatus, _⟩ := H.queued_head hq
  cases hjob.symm.trans hjob'
  exact .inl hstatus

theorem analyzeCalls_append (s : ScanState) (jobs : Dict JobId ScanJob)
    (queue : Option (List QueueEntry)) (worker : Worker) (es : List Effect) (id : JobId) :
    analyzeCalls ⟨jobs, queue, worker, s.effects ++ es⟩ id =
      s.analyzeCalls id + analyzeCalls ⟨jobs, queue, worker, es⟩ id := by
  simp only [analyzeCalls, List.countP_append]

theorem SaveEffects.analyzeCalls {es : List Effect} (h : SaveEffects jobId report es)
    (jobs : Dict JobId ScanJob) (queue : Option (List QueueEntry)) (worker : Worker) (id : JobId) :
    analyzeCalls ⟨jobs, queue, worker, es⟩ id = 0 := by
  cases h <;> rfl

theorem move_analyses {s t : ScanState} {l : Label} (H : Inv s) (h : Move s l t) :
    Analyses s t := by
  cases h with
  | same => exact .none (fun _ => rfl) fun _ h => h
  | startup hq =>
    refine .none (fun _ => rfl) fun id h job hjob => ?_
    rcases h job hjob with h | ⟨_, _, hw, _⟩
    · exact .inl h
    · cases hw
  | submit hq fresh position =>
    exact .none (fun _ => rfl) fun id h job hjob => h job (Dict.get?_insertNew_of_some fresh hjob)
  | refresh =>
    refine .none (fun _ => rfl) fun id h => h.of_modify rfl rfl fun h job hjob => ?_
    have h := h _ (Dict.get?_modify_eq_some.mpr (.inl ⟨rfl, job, hjob, rfl⟩))
    exact h
  | cancelQueued hjob hstatus =>
    refine .none (fun _ => rfl) fun id h => h.of_modify rfl rfl fun _ job' hjob' => ?_
    cases hjob.symm.trans hjob'
    exact .inl hstatus
  | cancelRunning hjob hstatus =>
    refine .none (fun _ => rfl) fun id h => h.of_modify rfl rfl fun h job' hjob' => ?_
    have h := h _ (Dict.get?_modify_eq_some.mpr (.inl ⟨rfl, job', hjob', rfl⟩))
    exact .inr (h.resolve_left fun h => by cases h)
  | skip hw hq => exact .none (fun _ => rfl) fun _ h => h
  | refuse hw hq =>
    exact .none (fun _ => rfl) fun id h =>
      h.of_modify rfl hw.symm fun _ => H.beforeAnalysis_head hq
  | start hw hq hjob hreq hstatus =>
    rename_i entry _ _
    refine .none (fun _ => ?_) fun id h => ?_
    · simp [analyzeCalls]
    · by_cases hid : id = entry.jobId
      · rw [hid]
        exact H.beforeAnalysis_head hq
      · exact h.of_ne rfl (.inr ⟨entry, .preparation, rfl, rfl⟩) hid
  | advance hw hnext hne hreq =>
    rename_i entry await await'
    refine .none (fun _ => rfl) fun id h => ?_
    by_cases hid : id = entry.jobId
    · refine fun _ _ => .inr ⟨entry, await, hw, hid.symm, ?_⟩
      rintro rfl
      cases hnext
    · exact h.of_ne rfl (.inr ⟨entry, await', rfl, rfl⟩) hid
  | analyze hw hreq =>
    rename_i entry
    refine .calls entry.jobId hreq (fun id => ?_) ?_ ?_ fun id hid h =>
      h.of_ne rfl (.inr ⟨entry, .analyze, rfl, rfl⟩) hid
    · rw [analyzeCalls_append]
      simp [analyzeCalls, eq_comm]
    · exact fun _ _ => .inr ⟨entry, .exposure, hw, rfl, by decide⟩
    · intro h
      obtain ⟨job, hjob, hstatus⟩ := H.held hw
      rcases h _ (Dict.get?_modify_eq_some.mpr (.inl ⟨rfl, job, hjob, rfl⟩)) with
        h | ⟨_, _, hw', _, hne⟩
      · have h : job.status = .queued := h
        simp [h] at hstatus
      · cases hw'
        exact hne rfl
  | stop hw | stopBeforeAnalysis hw | stopAfterAnalysis hw | failAnalysis hw | failReport hw
  | failSave hw =>
    exact .none (fun _ => rfl) fun id h => h.of_release H hw rfl rfl fun _ h => by cases h
  | failAlert hw _ _ _ hes | complete hw _ _ _ hes =>
    refine .none (fun id => ?_) fun id h => h.of_release H hw rfl rfl fun _ h => by cases h
    rw [analyzeCalls_append, hes.analyzeCalls, Nat.add_zero]

/-- At most one analysis, and none as long as the job has not come to it. -/
def AnalyzedOnce (s : ScanState) : Prop :=
  ∀ id, s.analyzeCalls id ≤ 1 ∧ (BeforeAnalysis s id → s.analyzeCalls id = 0)

theorem Analyses.analyzedOnce {s t : ScanState} (h : Analyses s t) (hs : AnalyzedOnce s) :
    AnalyzedOnce t := by
  intro id
  obtain ⟨hle, hzero⟩ := hs id
  cases h with
  | none hcalls hbefore =>
    rw [hcalls]
    exact ⟨hle, fun h => hzero (hbefore id h)⟩
  | calls jobId _ hcalls hstart hafter hbefore =>
    rw [hcalls]
    by_cases hid : id = jobId
    · subst hid
      rw [if_pos rfl, hzero hstart]
      exact ⟨le_refl 1, fun h => (hafter h).elim⟩
    · rw [if_neg hid, Nat.add_zero]
      exact ⟨hle, fun h => hzero (hbefore id hid h)⟩

theorem run_analyzedOnce {s : ScanState} {ls : List Label} (hrun : run ls = some s) :
    AnalyzedOnce s := by
  refine (exec_invariant (fun s => Inv s ∧ AnalyzedOnce s) ?_
    ⟨init_inv, fun _ => ⟨Nat.zero_le 1, fun _ => rfl⟩⟩ hrun).2
  rintro s l t ⟨H, hs⟩ hstep
  exact ⟨step_inv H hstep, (move_analyses H (step_move hstep)).analyzedOnce hs⟩

/-! ## Cancellation -/

/-- The step is a `cancel_scan` of the job that the endpoint accepts: of its owner, and for a job
that is not over. -/
def CancelAccepted (s : ScanState) (jobId : JobId) (l : Label) : Prop :=
  ∃ user job, l = .cancelScan jobId user ∧ s.job? jobId = some job ∧ job.userId = user ∧
    job.status.terminal = false

/-- A cancellation request is never withdrawn, and `analyze` is not called after it. -/
def RequestKept (s t : ScanState) : Prop :=
  ∀ id, s.cancelRequested id = true →
    t.cancelRequested id = true ∧ t.analyzeCalls id = s.analyzeCalls id

theorem cancelRequested_eq_true {s : ScanState} :
    s.cancelRequested id = true ↔ ∃ job, s.job? id = some job ∧ job.cancelRequested = true := by
  rw [cancelRequested, Option.any_eq_true]

/-- Rewriting a job without withdrawing a request. -/
theorem cancelRequested_modify {s t : ScanState} {f : ScanJob → ScanJob}
    (h : s.cancelRequested id = true) (hjobs : t.scanJobs = s.scanJobs.modify jobId f)
    (hf : ∀ job, job.cancelRequested = true → (f job).cancelRequested = true) :
    t.cancelRequested id = true := by
  obtain ⟨job, hjob, hreq⟩ := cancelRequested_eq_true.mp h
  rw [cancelRequested_eq_true]
  simp only [job?, hjobs]
  by_cases hid : id = jobId
  · subst hid
    exact ⟨f job, Dict.get?_modify_eq_some.mpr (.inl ⟨rfl, job, hjob, rfl⟩), hf job hreq⟩
  · exact ⟨job, Dict.get?_modify_eq_some.mpr (.inr ⟨hid, hjob⟩), hreq⟩

theorem move_cancelRequested {s t : ScanState} {l : Label} (h : Move s l t)
    (hreq : s.cancelRequested id = true) : t.cancelRequested id = true := by
  cases h with
  | same | startup | skip => exact hreq
  | submit hq fresh position =>
    obtain ⟨job, hjob, hjobreq⟩ := cancelRequested_eq_true.mp hreq
    exact cancelRequested_eq_true.mpr ⟨job, Dict.get?_insertNew_of_some fresh hjob, hjobreq⟩
  | cancelQueued | cancelRunning => exact cancelRequested_modify hreq rfl fun _ _ => rfl
  | refresh | refuse | start | advance | analyze | stop | stopBeforeAnalysis | stopAfterAnalysis
  | failAnalysis | failReport | failSave | failAlert | complete =>
    exact cancelRequested_modify hreq rfl fun _ h => h

theorem step_requestKept {s t : ScanState} {l : Label} (H : Inv s) (h : step s l = some t) :
    RequestKept s t := by
  intro id hreq
  refine ⟨move_cancelRequested (step_move h) hreq, ?_⟩
  cases move_analyses H (step_move h) with
  | none hcalls => exact hcalls id
  | calls jobId hnot hcalls =>
    have hid : id ≠ jobId := by
      rintro rfl
      rw [hnot] at hreq
      cases hreq
    rw [hcalls, if_neg hid, Nat.add_zero]

theorem exec_requestKept {s t : ScanState} {ls : List Label} (H : Inv s)
    (h : exec step s ls = some t) : RequestKept s t := by
  refine exec_rel Inv RequestKept (fun _ _ h => ⟨h, rfl⟩) ?_ (fun _ _ _ => step_inv)
    (fun _ _ _ => step_requestKept) H h
  intro s t u hst htu id hreq
  obtain ⟨hreq, hcalls⟩ := hst id hreq
  obtain ⟨hreq, hcalls'⟩ := htu id hreq
  exact ⟨hreq, hcalls'.trans hcalls⟩

/-- An accepted cancel requests the cancellation and calls nothing. -/
theorem CancelAccepted.requested {s t : ScanState} {l : Label} (h : CancelAccepted s jobId l)
    (hstep : step s l = some t) :
    t.cancelRequested jobId = true ∧ t.analyzeCalls jobId = s.analyzeCalls jobId := by
  obtain ⟨user, job, rfl, hjob, rfl, hstatus⟩ := h
  cases hstep
  have hget : s.scanJobs.get? jobId = some job := hjob
  cases hs : job.status with
  | queued =>
    cases hq : s.scanQueue <;>
    simp [cancelScan, hs, JobStatus.terminal, removeJobFromQueue, hq, cancelRequested, job?,
      hget, analyzeCalls]
  | running =>
    simp [cancelScan, hs, JobStatus.terminal, cancelRequested, job?, hget, analyzeCalls]
  | _ => rw [hs] at hstatus; cases hstatus

/-- In every state of every run, as long as `send_discord_alert` returns: a job was analyzed once
at most, it has one row if it is completed and none otherwise, and one alert if it is completed
with a high risk and none otherwise. A job is not analyzed any more once a cancel of it is
accepted. -/
theorem row_saved_iff_completed {ls : List Label} {s : ScanState} (hrun : run ls = some s)
    (halert : ∀ l ∈ ls, l.alertReturns) :
    (∀ id, s.analyzeCalls id ≤ 1 ∧
      s.savedRows id = (if s.status? id = some .completed then 1 else 0) ∧
      s.alerts id = if s.alertDue id then 1 else 0) ∧
    ∀ ls₁ l ls₂ s₁ id, ls = ls₁ ++ l :: ls₂ → run ls₁ = some s₁ → CancelAccepted s₁ id l →
      s.analyzeCalls id = s₁.analyzeCalls id := by
  have hacc := run_account hrun halert
  refine ⟨fun id => ⟨(run_analyzedOnce hrun id).1, ?_, hacc.alerts id⟩, ?_⟩
  · have hiff : (s.completed? id).isSome ↔ s.status? id = some .completed := by
      cases hjob : s.job? id with
      | none => simp [completed?, status?, hjob]
      | some job => by_cases hc : job.status = .completed <;> simp [completed?, status?, hjob, hc]
    rw [hacc.rows]
    simp only [hiff]
  · rintro ls₁ l ls₂ s₁ id rfl h₁ hcancel
    obtain ⟨s₁', h₁', h₂⟩ := exec_append_some.mp hrun
    cases h₁.symm.trans h₁'
    obtain ⟨t, ht, hrest⟩ := exec_cons_some.mp h₂
    obtain ⟨hreq, hcalls⟩ := hcancel.requested ht
    rw [(exec_requestKept (step_inv (run_inv h₁) ht) hrest id hreq).2, hcalls]

/-- Two submissions; the second is cancelled while it waits, the first completes. -/
def beforeCancel : List Label :=
  [.startup, .scanAsync 1 { target := "a.example" } 7, .scanAsync 2 { target := "b.example" } 8]

def afterCancel : List Label :=
  [.take, .wake, .wake, .wake, .wake, .wake,
    .finish (.returned (.obj [("risk", .str "HIGH")])) (.ok 41) (.ok ())]

theorem row_saved_iff_completed_two :
    ∃ s, run (beforeCancel ++ .cancelScan 2 8 :: afterCancel) = some s ∧ s.savedRows 1 = 1 ∧
      s.alerts 1 = 1 ∧ s.savedRows 2 = 0 ∧ s.analyzeCalls 2 = 0 := by
  have hjob : (run beforeCancel).bind (fun s => (s.job? 2).map fun job =>
      (job.userId, job.status.terminal, s.analyzeCalls 2)) = some (8, false, 0) := by decide
  obtain ⟨s₁, h₁, hjob⟩ := Option.bind_eq_some_iff.mp hjob
  obtain ⟨job, hjob, hfields⟩ := Option.map_eq_some_iff.mp hjob
  simp only [Prod.mk.injEq] at hfields
  obtain ⟨s, hs, hend⟩ := Option.bind_eq_some_iff.mp (show
    (run (beforeCancel ++ .cancelScan 2 8 :: afterCancel)).bind (fun s =>
      some (s.status? 1, s.status? 2, s.alertDue 1)) =
        some (some .completed, some .cancelled, true) by decide)
  simp only [Option.some.injEq, Prod.mk.injEq] at hend
  obtain ⟨hcounts, hcancel⟩ := row_saved_iff_completed hs (by
    intro l hl
    simp only [beforeCancel, afterCancel, List.cons_append, List.nil_append, List.mem_cons,
      List.not_mem_nil, or_false] at hl
    rcases hl with rfl | rfl | rfl | rfl | rfl | rfl | rfl | rfl | rfl | rfl | rfl <;> trivial)
  refine ⟨s, hs, ?_, ?_, ?_, ?_⟩
  · rw [(hcounts 1).2.1, hend.1, if_pos rfl]
  · rw [(hcounts 1).2.2, hend.2.2, if_pos rfl]
  · rw [(hcounts 2).2.1, hend.2.1]
    rfl
  · rw [hcancel _ _ _ s₁ 2 rfl h₁ ⟨8, job, rfl, hjob, hfields.1, hfields.2.1⟩]
    exact hfields.2.2

end ThreatScanner.Scan
