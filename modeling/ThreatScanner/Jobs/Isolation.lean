import ThreatScanner.Jobs.System
import ThreatScanner.Scan.Change

/-!
# Users do not touch each other's jobs

Every endpoint compares the user of the job it is called for with its caller. A call leaves the
jobs of the other users and their queue entries as they are, and a call for another user's job
changes nothing.
-/

namespace ThreatScanner.Jobs

open Scan Bulk ScanState

variable {lower upper : String → String} {s t : JobsState} {user : UserId}

/-! ## The owner of a queue entry -/

/-- A queue entry is of the user of its job. -/
def Owned (s : ScanState) : Prop :=
  ∀ entry ∈ s.queue, ∀ job, s.job? entry.jobId = some job → job.userId = entry.userId

/-- A step of the scan system that only takes entries out of the queue. -/
theorem Owned.of_sublist {s t : ScanState} {l : Scan.Label} (O : Owned s) (H : Inv s)
    (h : Scan.Move s l t) (hsub : ∀ entry ∈ t.queue, entry ∈ s.queue) : Owned t := by
  intro entry hentry job hjob
  obtain ⟨job', hjob', -⟩ := H.queued_of_mem (hsub entry hentry)
  obtain ⟨job'', hjob'', hchange⟩ := move_change H h hjob'
  cases hjob.symm.trans hjob''
  rw [hchange.userId_eq]
  exact O entry (hsub entry hentry) job' hjob'

theorem Owned.move {s t : ScanState} {l : Scan.Label} (O : Owned s) (H : Inv s)
    (h : Scan.Move s l t) : Owned t := by
  have hmove := h
  cases h with
  | submit hq fresh position =>
    intro entry hentry job hjob
    rcases List.mem_append.mp hentry with hold | hnew
    · have hmem : entry ∈ s.queue := by simpa only [queue, hq, Option.getD_some] using hold
      obtain ⟨job', hjob', -⟩ := H.queued_of_mem hmem
      cases (Dict.get?_insertNew_of_some fresh hjob').symm.trans hjob
      exact O entry hmem _ hjob'
    · cases List.mem_singleton.mp hnew
      rw [newEntry, job?, Dict.get?_insertNew, if_pos rfl] at hjob
      cases hjob
      rfl
  | startup hq => exact O.of_sublist H hmove fun _ h => by cases h
  | cancelQueued =>
    refine O.of_sublist H hmove fun entry h => ?_
    cases hq : s.scanQueue with
    | none => simp [queue, hq] at h
    | some items =>
      simp only [queue, hq, Option.map_some, Option.getD_some, List.mem_filter] at h ⊢
      exact h.1
  | skip _ hq | refuse _ hq | start _ hq =>
    refine O.of_sublist H hmove fun entry h => ?_
    rw [queue, hq]
    exact List.mem_cons_of_mem _ h
  | _ => exact O.of_sublist H hmove fun _ h => h

theorem init_owned : Owned .init := fun _ h => by cases h

/-! ## Runs of the service -/

/-- A call makes a step of the scan system, or none. -/
theorem serve_scan {call : Call} {answer : Except HttpError Answer}
    (h : serve lower upper s user call = some (answer, t)) :
    t.scan = s.scan ∨ ∃ l, Scan.step s.scan l = some t.scan := by
  cases call with
  | scanAsync jobId data =>
    simp only [serve] at h
    split at h
    · rename_i fresh
      cases h
      exact .inr ⟨.scanAsync jobId data user, dif_pos fresh⟩
    · cases h
  | cancelScan jobId =>
    cases h
    exact .inr ⟨.cancelScan jobId user, rfl⟩
  | scanStatus jobId =>
    cases h
    exact .inr ⟨.scanStatus jobId user, rfl⟩
  | queueStatus => cases h; exact .inl rfl
  | bulkScanStart bulkId data effects =>
    simp only [serve, startBulk] at h
    split at h
    · split at h <;> cases h <;> exact .inl rfl
    · cases h
  | bulkScanStatus | bulkScanResults =>
    simp only [serve, withBulkJob] at h
    split at h <;> cases h <;> exact .inl rfl
  | bulkScanCancel =>
    simp only [serve, withBulkJob] at h
    split at h
    · cases h; exact .inl rfl
    · split at h <;> cases h <;> exact .inl rfl

structure Sound (s : ScanState) : Prop where
  inv : Inv s
  owned : Owned s

theorem Sound.step {s t : ScanState} {l : Scan.Label} (S : Sound s)
    (h : Scan.step s l = some t) : Sound t :=
  ⟨step_inv S.inv h, S.owned.move S.inv (step_move h)⟩

theorem step_sound {l : Label} (S : Sound s.scan) (h : step lower upper s l = some t) :
    Sound t.scan := by
  cases l with
  | call user call =>
    obtain ⟨⟨answer, t'⟩, hserve, rfl⟩ := Option.map_eq_some_iff.mp h
    rcases serve_scan hserve with hsame | ⟨l, hl⟩
    · rw [hsame]; exact S
    · exact S.step hl
  | scan l =>
    simp only [step] at h
    split at h
    · obtain ⟨scan, hscan, rfl⟩ := Option.map_eq_some_iff.mp h
      exact S.step hscan
    · cases h
  | bulk bulkId l =>
    simp only [step] at h
    split at h
    · cases h
    · split at h
      · obtain ⟨_, _, rfl⟩ := Option.map_eq_some_iff.mp h
        exact S
      · cases h

theorem run_sound {ls : List Label} (h : run lower upper ls = some s) : Sound s.scan :=
  Transition.exec_invariant (fun s => Sound s.scan) (fun _ _ _ => step_sound)
    ⟨init_inv, init_owned⟩ h

/-! ## One call -/

/-- The scan jobs and the queue entries of the other users are the same. -/
structure ScanIsolated (user : UserId) (s t : ScanState) : Prop where
  jobs : ∀ id job, job.userId ≠ user → (t.job? id = some job ↔ s.job? id = some job)
  queue : t.queue.filter (·.userId ≠ user) = s.queue.filter (·.userId ≠ user)

theorem ScanIsolated.refl (user : UserId) (s : ScanState) : ScanIsolated user s s :=
  ⟨fun _ _ _ => .rfl, rfl⟩

section Scan
variable {s t : ScanState} {jobId : JobId} {data : ScanRequest}

theorem scanAsync_isolated (h : Scan.Move s (.scanAsync jobId data user) t) :
    ScanIsolated user s t := by
  cases h with
  | same => exact .refl user s
  | submit hq fresh position =>
    refine ⟨fun id job hother => ?_, ?_⟩
    · exact Dict.get?_insertNew_iff_of_not (p := fun job : ScanJob => job.userId ≠ user) fresh
        (not_not.mpr rfl) hother
    · simp [queue, hq, newEntry]

theorem cancelScan_isolated (S : Sound s) (h : Scan.Move s (.cancelScan jobId user) t) :
    ScanIsolated user s t := by
  -- only the job of the caller is rewritten
  have hjobs : ∀ {f : ScanJob → ScanJob} {job : ScanJob}, s.job? jobId = some job →
      job.userId = user → (∀ job, (f job).userId = job.userId) → ∀ id job', job'.userId ≠ user →
      ((s.modifyJob jobId f).job? id = some job' ↔ s.job? id = some job') := by
    intro f job hjob howner hf id job' hother
    refine Dict.get?_modify_iff_of_not (p := fun job : ScanJob => job.userId ≠ user)
      (fun v hv => ?_) hother
    cases hjob.symm.trans hv
    rw [hf]
    exact ⟨not_not.mpr howner, not_not.mpr howner⟩
  cases h with
  | same => exact .refl user s
  | cancelRunning hjob hstatus howner => exact ⟨hjobs hjob howner fun _ => rfl, rfl⟩
  | cancelQueued hjob hstatus howner =>
    refine ⟨hjobs hjob howner fun _ => rfl, ?_⟩
    cases hq : s.scanQueue with
    | none => simp [queue, hq]
    | some items =>
      simp only [queue, hq, Option.map_some, Option.getD_some, List.filter_filter]
      refine List.filter_congr fun entry hentry => ?_
      have hmem : entry ∈ s.queue := by rwa [queue, hq]
      by_cases hid : entry.jobId = jobId
      · have := S.owned entry hmem _ (hid ▸ hjob)
        simp [← this, howner]
      · simp [hid]

theorem scanStatus_isolated : ScanIsolated user s (scanStatus s jobId user).2 := by
  unfold scanStatus
  cases hjob : s.job? jobId with
  | none => exact .refl user s
  | some job =>
    by_cases howner : job.userId = user
    · simp only [howner, ne_eq, not_true, if_false]
      refine ⟨fun id job' hother => ?_, rfl⟩
      refine Dict.get?_modify_iff_of_not (p := fun job : ScanJob => job.userId ≠ user)
        (fun v hv => ?_) hother
      cases hjob.symm.trans hv
      exact ⟨not_not.mpr howner, not_not.mpr howner⟩
    · simp only [if_pos (show job.userId ≠ user from howner)]
      exact .refl user s

end Scan

/-- The jobs and the queue entries of the other users are the same. -/
structure Isolated (user : UserId) (s t : JobsState) : Prop where
  scan : ScanIsolated user s.scan t.scan
  bulkJobs : ∀ id r, r.state.job.userId ≠ (user : Int) →
    (t.bulkJobs.get? id = some r ↔ s.bulkJobs.get? id = some r)

theorem Isolated.refl (user : UserId) (s : JobsState) : Isolated user s s :=
  ⟨.refl user _, fun _ _ _ => .rfl⟩

theorem bulkScanStart_userId {data : BulkScanRequest} {userId : Int} {targets : List String}
    {job : BulkJob} (h : bulkScanStart lower data userId = .ok (targets, job)) :
    job.userId = userId := by
  simp only [bulkScanStart] at h
  split at h
  · cases h
  · cases h
    rfl

theorem bulkScanCancel_userId {job job' : BulkJob} {userId : Int}
    (h : bulkScanCancel job userId = .ok job') : job.userId = userId ∧ job'.userId = userId := by
  unfold bulkScanCancel at h
  split at h
  · cases h
  · rename_i howner
    rw [ne_eq, not_not] at howner
    split at h <;> cases h <;> exact ⟨howner, howner⟩

theorem serve_isolated {call : Call} {answer : Except HttpError Answer} (S : Sound s.scan)
    (h : serve lower upper s user call = some (answer, t)) : Isolated user s t := by
  cases call with
  | scanAsync jobId data =>
    simp only [serve] at h
    split at h
    · rename_i fresh
      cases h
      exact ⟨scanAsync_isolated (scanAsync_move s.scan jobId fresh data user), fun _ _ _ => .rfl⟩
    · cases h
  | cancelScan jobId =>
    cases h
    exact ⟨cancelScan_isolated S (cancelScan_move s.scan jobId user), fun _ _ _ => .rfl⟩
  | scanStatus jobId =>
    cases h
    exact ⟨scanStatus_isolated, fun _ _ _ => .rfl⟩
  | queueStatus => cases h; exact .refl user s
  | bulkScanStart bulkId data effects =>
    simp only [serve, startBulk] at h
    split at h
    · rename_i fresh
      split at h
      · cases h; exact .refl user s
      · rename_i targets job hstart
        cases h
        refine ⟨.refl user _, fun id r hother => ?_⟩
        refine Dict.get?_insertNew_iff_of_not
          (p := fun r : BulkRun => r.state.job.userId ≠ (user : Int)) fresh ?_ hother
        exact not_not.mpr (bulkScanStart_userId hstart)
    · cases h
  | bulkScanStatus | bulkScanResults =>
    simp only [serve, withBulkJob] at h
    split at h <;> cases h <;> exact .refl user s
  | bulkScanCancel bulkId =>
    simp only [serve, withBulkJob] at h
    split at h
    · cases h; exact .refl user s
    · rename_i r hr
      split at h
      · cases h; exact .refl user s
      · rename_i job hcancel
        cases h
        obtain ⟨howner, howner'⟩ := bulkScanCancel_userId hcancel
        refine ⟨.refl user _, fun id r hother => ?_⟩
        refine Dict.get?_modify_iff_of_not
          (p := fun r : BulkRun => r.state.job.userId ≠ (user : Int)) (fun v hv => ?_) hother
        cases hr.symm.trans hv
        exact ⟨not_not.mpr howner, not_not.mpr howner'⟩

/-- The call names a job of another user. -/
def Call.Foreign (s : JobsState) (user : UserId) : Call → Prop
  | .cancelScan jobId | .scanStatus jobId =>
    ∃ job, s.scan.job? jobId = some job ∧ job.userId ≠ user
  | .bulkScanStatus bulkId | .bulkScanResults bulkId | .bulkScanCancel bulkId =>
    ∃ r, s.bulkJobs.get? bulkId = some r ∧ r.state.job.userId ≠ (user : Int)
  | _ => False

theorem serve_foreign {call : Call} (hforeign : call.Foreign s user) :
    serve lower upper s user call = some (.error ⟨403, "Not allowed"⟩, s) := by
  cases call with
  | cancelScan jobId =>
    obtain ⟨job, hjob, hother⟩ := hforeign
    simp only [serve, Scan.cancelScan, hjob, if_pos hother]
    rfl
  | scanStatus jobId =>
    obtain ⟨job, hjob, hother⟩ := hforeign
    simp only [serve, Scan.scanStatus, hjob, if_pos hother]
    rfl
  | bulkScanStatus bulkId =>
    obtain ⟨r, hr, hother⟩ := hforeign
    simp only [serve, withBulkJob, hr, Bulk.bulkScanStatus, if_pos hother]
    rfl
  | bulkScanResults bulkId =>
    obtain ⟨r, hr, hother⟩ := hforeign
    simp only [serve, withBulkJob, hr, Bulk.bulkScanResults, if_pos hother]
    rfl
  | bulkScanCancel bulkId =>
    obtain ⟨r, hr, hother⟩ := hforeign
    simp only [serve, withBulkJob, hr, Bulk.bulkScanCancel, if_pos hother]
  | _ => exact hforeign.elim

/-- Every job is in one of the five statuses. -/
theorem length_filter_status (jobs : List ScanJob) :
    (jobs.filter (·.status = .running)).length + (jobs.filter (·.status = .queued)).length +
      (jobs.filter (·.status = .completed)).length + (jobs.filter (·.status = .failed)).length +
      (jobs.filter (·.status = .cancelled)).length = jobs.length := by
  induction jobs with
  | nil => rfl
  | cons job jobs ih =>
    cases hstatus : job.status <;>
    · simp only [List.filter_cons, hstatus, List.length_cons, ← ih]
      simp
      omega

/-- A call of one user leaves what belongs to the others, is refused for a job of another user, and
counts the jobs of the caller by their status. -/
theorem users_isolated {ls : List Label} {call : Call} {answer : Except HttpError Answer}
    (hrun : run lower upper ls = some s)
    (hserve : serve lower upper s user call = some (answer, t)) :
    Isolated user s t ∧
    (call.Foreign s user → (∃ e, answer = .error e) ∧ t = s) ∧
    (call = .queueStatus → ∃ q, answer = .ok (.queue q) ∧
      q.running + q.queued + q.completed + q.failed + q.cancelled =
        (userJobs s.scan user).length) := by
  refine ⟨serve_isolated (run_sound hrun) hserve, fun hforeign => ?_, ?_⟩
  · cases (serve_foreign hforeign).symm.trans hserve
    exact ⟨⟨_, rfl⟩, rfl⟩
  · rintro rfl
    cases hserve
    exact ⟨_, rfl, length_filter_status _⟩

/-- A job each of two users. -/
def twoUsers : List Label :=
  [.scan .startup, .call 7 (.scanAsync 1 { target := "a.example" }),
    .call 8 (.scanAsync 2 { target := "b.example" })]

theorem users_isolated_two : ∃ s answer t, run id id twoUsers = some s ∧
    serve id id s 8 (.cancelScan 2) = some (answer, t) ∧
    s.scan.queue.map (·.userId) = [7, 8] ∧ t.scan.queue.map (·.userId) = [7] ∧
    Isolated 8 s t := by
  obtain ⟨s, hs, hqueue⟩ : ∃ s, run id id twoUsers = some s ∧
    s.scan.queue.map (·.userId) = [7, 8] := ⟨_, rfl, rfl⟩
  obtain ⟨answer, t, ht, hqueue'⟩ : ∃ answer t, serve id id s 8 (.cancelScan 2) = some (answer, t) ∧
      t.scan.queue.map (·.userId) = [7] := by
    cases hs
    exact ⟨_, _, rfl, rfl⟩
  exact ⟨s, answer, t, hs, ht, hqueue, hqueue', (users_isolated hs ht).1⟩

end ThreatScanner.Jobs
