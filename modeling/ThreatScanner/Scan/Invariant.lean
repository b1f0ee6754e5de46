import ThreatScanner.Scan.Move

/-!
# The invariant of the scan system

`Inv` ties the queue, the job table and the worker together: the queue holds the queued jobs in
order of submission, the job the worker holds is running or was cancelled under it, and no other
job is running. It holds in every state of every run (`run_inv`).
-/

namespace ThreatScanner.Scan

open ScanState

structure Inv (s : ScanState) : Prop where
  unstarted : s.scanQueue = none → s.worker = .notStarted
  queue_ids : s.queue.map (·.jobId) = s.queuedIds
  held : ∀ {entry await}, s.worker = .busy entry await →
    ∃ job, s.job? entry.jobId = some job ∧ (job.status = .running ∨ job.status = .cancelled)
  running : ∀ {id job}, s.job? id = some job → job.status = .running →
    ∃ entry await, s.worker = .busy entry await ∧ entry.jobId = id
  requested : ∀ {id job}, s.job? id = some job → job.cancelRequested = true →
    job.status = .cancelled ∨ job.status = .failed
  cancelled : ∀ {id job}, s.job? id = some job → job.status = .cancelled →
    job.cancelRequested = true

theorem init_inv : Inv init where
  unstarted _ := rfl
  queue_ids := rfl
  held h := nomatch h
  running h := nomatch h
  requested h := nomatch h
  cancelled h := nomatch h

namespace Inv

variable {s : ScanState} {entry : QueueEntry} {await : Await} {f : ScanJob → ScanJob}

theorem nodup_queue (H : Inv s) : (s.queue.map (·.jobId)).Nodup := by
  rw [H.queue_ids]
  exact Dict.nodup_keysWhere

/-- The job of a queue entry is queued. -/
theorem queued_of_mem (H : Inv s) (h : entry ∈ s.queue) :
    ∃ job, s.job? entry.jobId = some job ∧ job.status = .queued ∧ job.cancelRequested = false := by
  have hmem : entry.jobId ∈ s.queuedIds := H.queue_ids ▸ List.mem_map_of_mem h
  obtain ⟨job, hjob, hq⟩ := Dict.mem_keysWhere.mp hmem
  rw [decide_eq_true_eq] at hq
  refine ⟨job, hjob, hq, ?_⟩
  by_contra hreq
  rw [Bool.not_eq_false] at hreq
  have := H.requested hjob hreq
  simp [hq] at this

theorem queued_head (H : Inv s) (hq : s.scanQueue = some (entry :: rest)) :
    ∃ job, s.job? entry.jobId = some job ∧ job.status = .queued ∧ job.cancelRequested = false :=
  H.queued_of_mem (by simp [queue, hq])

/-- Taking the first entry leaves the queued jobs after it. -/
theorem queuedIds_head (H : Inv s) (hq : s.scanQueue = some (entry :: rest)) :
    s.queuedIds.filter (· ≠ entry.jobId) = rest.map (·.jobId) := by
  have hids := H.queue_ids
  have hnodup := H.nodup_queue
  simp only [queue, hq, Option.getD_some, List.map_cons, List.nodup_cons] at hids hnodup
  rw [← hids, List.filter_cons_of_neg (by simp), List.filter_eq_self]
  intro id hid
  rw [decide_eq_true_eq]
  rintro rfl
  exact hnodup.1 hid

/-- Rewriting the job the worker holds, without queueing it, leaves the queued jobs. -/
theorem queuedIds_held (H : Inv s) (hw : s.worker = .busy entry await)
    (hf : ∀ job, job.status ≠ .queued → (f job).status ≠ .queued) :
    (s.scanJobs.modify entry.jobId f).keysWhere (fun job => job.status = .queued) =
      s.queuedIds := by
  refine Dict.keysWhere_modify_of_eq fun job hjob => ?_
  obtain ⟨job', hjob', hstatus⟩ := H.held hw
  have hne : job.status ≠ .queued := by
    cases hjob.symm.trans hjob'
    rcases hstatus with h | h <;> simp [h]
  simp [hne, hf job hne]

/-- The worker lets the job it holds go, in a state that is not running. -/
theorem release (H : Inv s) (hw : s.worker = .busy entry await) (effects : List Effect)
    (hstatus : ∀ job, (f job).status ≠ .queued ∧ (f job).status ≠ .running)
    (hreq : ∀ job, s.job? entry.jobId = some job → (f job).cancelRequested = true →
      (f job).status = .cancelled ∨ (f job).status = .failed)
    (hcancel : ∀ job, s.job? entry.jobId = some job → (f job).status = .cancelled →
      (f job).cancelRequested = true) :
    Inv { s.modifyJob entry.jobId f with worker := .waiting, effects := effects } where
  unstarted h := by
    have := H.unstarted h
    rw [hw] at this
    cases this
  queue_ids := by
    show s.queue.map _ = _
    rw [H.queue_ids]
    exact (H.queuedIds_held hw fun job _ => (hstatus job).1).symm
  held h := nomatch h
  running := by
    intro id job hjob hrun
    rcases Dict.get?_modify_eq_some.mp hjob with ⟨rfl, job', _, rfl⟩ | ⟨hne, hjob⟩
    · exact ((hstatus job').2 hrun).elim
    · obtain ⟨entry', await', hw', rfl⟩ := H.running hjob hrun
      rw [hw] at hw'
      cases hw'
      exact (hne rfl).elim
  requested := by
    intro id job hjob h
    rcases Dict.get?_modify_eq_some.mp hjob with ⟨rfl, job', hjob', rfl⟩ | ⟨_, hjob⟩
    · exact hreq job' hjob' h
    · exact H.requested hjob h
  cancelled := by
    intro id job hjob h
    rcases Dict.get?_modify_eq_some.mp hjob with ⟨rfl, job', hjob', rfl⟩ | ⟨_, hjob⟩
    · exact hcancel job' hjob' h
    · exact H.cancelled hjob h

/-- Writing to the other fields of a job. -/
theorem touch (H : Inv s) (jobId : JobId) (f : ScanJob → ScanJob)
    (hstatus : ∀ job, (f job).status = job.status)
    (hreq : ∀ job, (f job).cancelRequested = job.cancelRequested) : Inv (s.modifyJob jobId f) where
  unstarted := H.unstarted
  queue_ids := by
    show s.queue.map _ = _
    rw [H.queue_ids]
    exact (Dict.keysWhere_modify_of_eq fun job _ => by simp only [hstatus]).symm
  held := by
    intro entry _ hw
    obtain ⟨job, hjob, h⟩ := H.held hw
    by_cases hid : entry.jobId = jobId
    · subst hid
      exact ⟨f job, Dict.get?_modify_eq_some.mpr (.inl ⟨rfl, job, hjob, rfl⟩), by rwa [hstatus]⟩
    · exact ⟨job, Dict.get?_modify_eq_some.mpr (.inr ⟨hid, hjob⟩), h⟩
  running := by
    intro id job hjob hrun
    rcases Dict.get?_modify_eq_some.mp hjob with ⟨rfl, job', hjob', rfl⟩ | ⟨_, hjob⟩
    · exact H.running hjob' (by rwa [hstatus] at hrun)
    · exact H.running hjob hrun
  requested := by
    intro id job hjob h
    rcases Dict.get?_modify_eq_some.mp hjob with ⟨rfl, job', hjob', rfl⟩ | ⟨_, hjob⟩
    · rw [hstatus]
      exact H.requested hjob' (by rwa [hreq] at h)
    · exact H.requested hjob h
  cancelled := by
    intro id job hjob h
    rcases Dict.get?_modify_eq_some.mp hjob with ⟨rfl, job', hjob', rfl⟩ | ⟨_, hjob⟩
    · rw [hreq]
      exact H.cancelled hjob' (by rwa [hstatus] at h)
    · exact H.cancelled hjob h

/-- The worker goes on to another await of the job it holds. -/
theorem moveOn (H : Inv s) (hw : s.worker = .busy entry a) (a' : Await) (effects : List Effect) :
    Inv { s with worker := .busy entry a', effects := effects } where
  unstarted h := by
    have := H.unstarted h
    rw [hw] at this
    cases this
  queue_ids := H.queue_ids
  held h := by cases h; exact H.held hw
  running := by
    intro id job hjob hrun
    obtain ⟨entry', _, hw', rfl⟩ := H.running hjob hrun
    rw [hw] at hw'
    cases hw'
    exact ⟨entry, a', rfl, rfl⟩
  requested := H.requested
  cancelled := H.cancelled

theorem startup (H : Inv s) (hq : s.scanQueue = none) :
    Inv { s with scanQueue := some [], worker := .waiting } where
  unstarted h := nomatch h
  queue_ids := by
    have hids := H.queue_ids
    rw [queue, hq] at hids
    exact hids
  held h := nomatch h
  running := by
    intro id job hjob hrun
    obtain ⟨_, _, hw, _⟩ := H.running hjob hrun
    rw [H.unstarted hq] at hw
    cases hw
  requested := H.requested
  cancelled := H.cancelled

theorem submit (H : Inv s) (hq : s.scanQueue = some items) (fresh : jobId ∉ s.scanJobs.keys)
    (position : Option Nat) :
    Inv { s with
      scanJobs := s.scanJobs.insertNew jobId
        { newJob jobId data user with queuePosition := position } fresh
      scanQueue := some (items ++ [newEntry jobId data user]) } where
  unstarted h := nomatch h
  queue_ids := by
    have hids := H.queue_ids
    simp only [queue, hq, Option.getD_some] at hids
    simp only [queue, queuedIds, Option.getD_some, List.map_append, hids,
      Dict.keysWhere_insertNew]
    rfl
  held hw := by
    obtain ⟨job, hjob, h⟩ := H.held hw
    exact ⟨job, Dict.get?_insertNew_of_some fresh hjob, h⟩
  running := by
    intro id job hjob hrun
    rw [job?, Dict.get?_insertNew] at hjob
    split at hjob
    · cases hjob; cases hrun
    · exact H.running hjob hrun
  requested := by
    intro id job hjob h
    rw [job?, Dict.get?_insertNew] at hjob
    split at hjob
    · cases hjob; cases h
    · exact H.requested hjob h
  cancelled := by
    intro id job hjob h
    rw [job?, Dict.get?_insertNew] at hjob
    split at hjob
    · cases hjob; cases h
    · exact H.cancelled hjob h

theorem cancelQueued (H : Inv s) (hjob : s.job? jobId = some job) (hq : job.status = .queued) :
    Inv { s.modifyJob jobId ScanJob.cancelQueued with
      scanQueue := s.scanQueue.map (·.filter (·.jobId ≠ jobId)) } where
  unstarted h := H.unstarted (Option.map_eq_none_iff.mp h)
  queue_ids := by
    have hids := H.queue_ids
    have hout : (s.scanJobs.modify jobId ScanJob.cancelQueued).keysWhere
        (fun job => job.status = .queued) = s.queuedIds.filter (· ≠ jobId) :=
      Dict.keysWhere_modify_of_false fun _ _ => rfl
    show _ = (s.scanJobs.modify jobId ScanJob.cancelQueued).keysWhere _
    rw [hout, ← hids, List.filter_map]
    cases hs : s.scanQueue with
    | none => simp [queue, hs]
    | some items => simp [queue, hs, Function.comp_def]
  held := by
    intro entry _ hw
    obtain ⟨job', hjob', h⟩ := H.held hw
    have hid : entry.jobId ≠ jobId := by
      rintro rfl
      cases hjob.symm.trans hjob'
      simp [hq] at h
    exact ⟨job', Dict.get?_modify_eq_some.mpr (.inr ⟨hid, hjob'⟩), h⟩
  running := by
    intro id job' hjob' hrun
    rcases Dict.get?_modify_eq_some.mp hjob' with ⟨_, _, _, rfl⟩ | ⟨_, hjob'⟩
    · cases hrun
    · exact H.running hjob' hrun
  requested := by
    intro id job' hjob' h
    rcases Dict.get?_modify_eq_some.mp hjob' with ⟨_, _, _, rfl⟩ | ⟨_, hjob'⟩
    · exact .inl rfl
    · exact H.requested hjob' h
  cancelled := by
    intro id job' hjob' h
    rcases Dict.get?_modify_eq_some.mp hjob' with ⟨_, _, _, rfl⟩ | ⟨_, hjob'⟩
    · rfl
    · exact H.cancelled hjob' h

theorem cancelRunning (H : Inv s) (hjob : s.job? jobId = some job) (hr : job.status = .running) :
    Inv (s.modifyJob jobId ScanJob.cancelRunning) where
  unstarted := H.unstarted
  queue_ids := by
    show s.queue.map _ = (s.scanJobs.modify jobId ScanJob.cancelRunning).keysWhere _
    rw [H.queue_ids]
    refine (Dict.keysWhere_modify_of_eq fun job' hjob' => ?_).symm
    cases hjob.symm.trans hjob'
    simp [hr, ScanJob.cancelRunning]
  held := by
    intro entry _ hw
    obtain ⟨job', hjob', h⟩ := H.held hw
    by_cases hid : entry.jobId = jobId
    · subst hid
      exact ⟨_, Dict.get?_modify_eq_some.mpr (.inl ⟨rfl, job', hjob', rfl⟩), .inr rfl⟩
    · exact ⟨job', Dict.get?_modify_eq_some.mpr (.inr ⟨hid, hjob'⟩), h⟩
  running := by
    intro id job' hjob' hrun
    rcases Dict.get?_modify_eq_some.mp hjob' with ⟨_, _, _, rfl⟩ | ⟨_, hjob'⟩
    · cases hrun
    · exact H.running hjob' hrun
  requested := by
    intro id job' hjob' h
    rcases Dict.get?_modify_eq_some.mp hjob' with ⟨_, _, _, rfl⟩ | ⟨_, hjob'⟩
    · exact .inl rfl
    · exact H.requested hjob' h
  cancelled := by
    intro id job' hjob' h
    rcases Dict.get?_modify_eq_some.mp hjob' with ⟨_, _, _, rfl⟩ | ⟨_, hjob'⟩
    · rfl
    · exact H.cancelled hjob' h

theorem start (H : Inv s) (effects : List Effect) (hw : s.worker = .waiting)
    (hq : s.scanQueue = some (entry :: rest)) :
    Inv { s.modifyJob entry.jobId ScanJob.start with
      scanQueue := some rest, worker := .busy entry .preparation, effects := effects } where
  unstarted h := nomatch h
  queue_ids := by
    have hout : (s.scanJobs.modify entry.jobId ScanJob.start).keysWhere
        (fun job => job.status = .queued) = s.queuedIds.filter (· ≠ entry.jobId) :=
      Dict.keysWhere_modify_of_false fun _ _ => rfl
    show rest.map _ = (s.scanJobs.modify entry.jobId ScanJob.start).keysWhere _
    rw [hout, H.queuedIds_head hq]
  held h := by
    cases h
    obtain ⟨job, hjob, _⟩ := H.queued_head hq
    exact ⟨_, Dict.get?_modify_eq_some.mpr (.inl ⟨rfl, job, hjob, rfl⟩), .inl rfl⟩
  running := by
    intro id job hjob hrun
    rcases Dict.get?_modify_eq_some.mp hjob with ⟨rfl, _⟩ | ⟨_, hjob⟩
    · exact ⟨entry, .preparation, rfl, rfl⟩
    · obtain ⟨_, _, hw', _⟩ := H.running hjob hrun
      rw [hw] at hw'
      cases hw'
  requested := by
    intro id job hjob h
    rcases Dict.get?_modify_eq_some.mp hjob with ⟨rfl, job', hjob', rfl⟩ | ⟨_, hjob⟩
    · obtain ⟨job'', hjob'', _, hreq⟩ := H.queued_head hq
      cases hjob'.symm.trans hjob''
      have h : job'.cancelRequested = true := h
      rw [hreq] at h
      cases h
    · exact H.requested hjob h
  cancelled := by
    intro id job hjob h
    rcases Dict.get?_modify_eq_some.mp hjob with ⟨rfl, job', hjob', rfl⟩ | ⟨_, hjob⟩
    · cases h
    · exact H.cancelled hjob h

end Inv

theorem cancelRequested_eq {s : ScanState} {job : ScanJob} (hjob : s.job? jobId = some job) :
    s.cancelRequested jobId = job.cancelRequested := by
  simp [ScanState.cancelRequested, hjob]

theorem move_inv {s t : ScanState} {l : Label} (H : Inv s) (h : Move s l t) : Inv t := by
  cases h with
  | same => exact H
  | startup hq => exact H.startup hq
  | submit hq fresh position => exact H.submit hq fresh position
  | refresh => exact H.touch _ _ (fun _ => rfl) fun _ => rfl
  | cancelQueued hjob hq => exact H.cancelQueued hjob hq
  | cancelRunning hjob hr => exact H.cancelRunning hjob hr
  | skip hw hq hskip =>
    obtain ⟨job, hjob, hstatus, _⟩ := H.queued_head hq
    rcases hskip with h | h
    · rw [hjob] at h; cases h
    · simp [status?, hjob, hstatus] at h
  | refuse hw hq hjob hreq =>
    obtain ⟨job', hjob', _, hreq'⟩ := H.queued_head hq
    cases hjob.symm.trans hjob'
    rw [hreq] at hreq'
    cases hreq'
  | start hw hq => exact H.start _ hw hq
  | advance hw => exact (H.touch _ (·.announce _) (fun _ => rfl) fun _ => rfl).moveOn hw _ _
  | analyze hw => exact (H.touch _ (·.announce _) (fun _ => rfl) fun _ => rfl).moveOn hw _ _
  | stop hw hreq | stopBeforeAnalysis hw hreq =>
    refine H.release hw _ (fun _ => by simp) (fun _ _ _ => .inl rfl) fun job hjob _ => ?_
    rw [cancelRequested_eq hjob] at hreq
    exact hreq
  | stopAfterAnalysis hw hreq =>
    refine H.release hw _ (fun _ => by simp) (fun _ _ _ => .inl rfl) fun job hjob _ => ?_
    rcases hreq with hreq | hc
    · rw [cancelRequested_eq hjob] at hreq
      exact hreq
    · rw [status?, hjob, Option.map_some, Option.some.injEq] at hc
      show job.cancelRequested = true
      exact H.cancelled hjob hc
  | failAnalysis hw | failReport hw | failSave hw | failAlert hw =>
    exact H.release hw _ (fun _ => by simp) (fun _ _ _ => .inr rfl) fun _ _ h => by cases h
  | complete hw hreq =>
    refine H.release hw _ (fun _ => by simp) (fun job hjob h => ?_) fun _ _ h => by cases h
    rw [cancelRequested_eq hjob] at hreq
    have h : job.cancelRequested = true := h
    rw [hreq] at h
    cases h

theorem step_inv {s t : ScanState} {l : Label} (H : Inv s) (h : step s l = some t) : Inv t :=
  move_inv H (step_move h)

theorem run_inv {s : ScanState} {ls : List Label} (h : run ls = some s) : Inv s :=
  Transition.exec_invariant Inv (fun _ _ _ => step_inv) init_inv h

end ThreatScanner.Scan
