import ThreatScanner.Scan.Change
import ThreatScanner.Scan.Effects

/-!
# The reports of the jobs

A job hands one report at most to `save_scan_result`: `Ends` says what the end of an analysis does
to the job, and to which scan its report is filed. A job that ended so is `Settled` and does not
change any more.
-/

namespace ThreatScanner.Scan

open ScanState

variable {s t : ScanState} {l : Label} {entry : QueueEntry} {id : JobId} {job job' : ScanJob}

/-- The report `run_scan_job` hands to `save_scan_result`, if it gets there. -/
def reportToSave (s : ScanState) (entry : QueueEntry) : AnalyzeOutcome → Option Json
  | .raised _ => none
  | .returned result =>
    if s.cancelRequested entry.jobId || s.status? entry.jobId = some .cancelled then none
    else (result.setItem "profile" (.str entry.profile)).toOption

def filed? : Effect → Option (JobId × Nat)
  | .saveScan jobId scanId => some (jobId, scanId)
  | _ => none

/-- The jobs whose reports were saved, with the ids of the scans. -/
def filed (s : ScanState) : List (JobId × Nat) := s.effects.filterMap filed?

/-- The submission waits in the queue, or the worker has it. -/
def Held (s : ScanState) (entry : QueueEntry) : Prop :=
  entry ∈ s.queue ∨ ∃ await, s.worker = .busy entry await

/-- A submission is that of its job. -/
def Matched (s : ScanState) : Prop :=
  ∀ entry, Held s entry → ∀ job, s.job? entry.jobId = some job →
    job.userId = entry.userId ∧ job.target = entry.target

theorem held_move (h : Move s l t) (hentry : Held t entry) : Held s entry ∨
    ∃ jobId data user position, entry = newEntry jobId data user ∧ t.job? jobId =
      some { newJob jobId data user with queuePosition := position } := by
  cases h with
  | same | refresh | cancelRunning => exact .inl hentry
  | startup hq =>
    rcases hentry with hentry | ⟨await, hw⟩
    · cases hentry
    · cases hw
  | @submit items jobId data user hq fresh position =>
    rcases hentry with hentry | hw
    · rcases List.mem_append.mp hentry with hentry | hentry
      · exact .inl (.inl (by rwa [queue, hq]))
      · refine .inr ⟨jobId, data, user, position, List.mem_singleton.mp hentry, ?_⟩
        rw [job?, Dict.get?_insertNew, if_pos rfl]
    · exact .inl (.inr hw)
  | cancelQueued =>
    rcases hentry with hentry | hw
    · refine .inl (.inl ?_)
      cases hq : s.scanQueue with
      | none => simp [queue, hq] at hentry
      | some items =>
        simp only [queue, hq, Option.map_some, Option.getD_some, List.mem_filter] at hentry ⊢
        exact hentry.1
    · exact .inl (.inr hw)
  | skip hw hq | refuse hw hq =>
    rcases hentry with hentry | ⟨await, hbusy⟩
    · exact .inl (.inl (by rw [queue, hq]; exact List.mem_cons_of_mem _ hentry))
    · first
      | cases hbusy
      | (rw [hw] at hbusy; cases hbusy)
  | start hw hq =>
    rcases hentry with hentry | ⟨await, hbusy⟩
    · exact .inl (.inl (by rw [queue, hq]; exact List.mem_cons_of_mem _ hentry))
    · cases hbusy
      exact .inl (.inl (by rw [queue, hq]; exact List.mem_cons_self))
  | advance hw | analyze hw =>
    rcases hentry with hentry | ⟨await, hbusy⟩
    · exact .inl (.inl hentry)
    · cases hbusy
      exact .inl (.inr ⟨_, hw⟩)
  | stop | stopBeforeAnalysis | stopAfterAnalysis | failAnalysis | failReport | failSave
  | failAlert | complete =>
    rcases hentry with hentry | ⟨await, hbusy⟩
    · exact .inl (.inl hentry)
    · cases hbusy

theorem Change.target_eq (h : Change s id job l job') : job'.target = job.target := by
  cases h <;> rfl

/-- The job ended with `run_scan_job`, and not by a cancellation. -/
def Settled (job : ScanJob) : Prop := job.status = .completed ∨ job.status = .failed

theorem Settled.not_held (H : Inv s) (hs : Settled job) (hjob : s.job? id = some job)
    {await : Await} (hw : s.worker = .busy entry await) : entry.jobId ≠ id := by
  rintro rfl
  obtain ⟨job', hjob', hstatus⟩ := H.held hw
  cases hjob.symm.trans hjob'
  rcases hs with hs | hs <;> rcases hstatus with hstatus | hstatus <;> simp [hs] at hstatus

/-- Nothing that is read of a settled job changes. -/
theorem Settled.change (H : Inv s) (hs : Settled job) (hjob : s.job? id = some job)
    (h : Change s id job l job') : job'.status = job.status ∧ job'.result = job.result := by
  cases h with
  | keep | refresh => exact ⟨rfl, rfl⟩
  | cancelQueued hstatus | cancelRunning hstatus | start hstatus =>
    rcases hs with hs | hs <;> rw [hs] at hstatus <;> cases hstatus
  | announce hw hid | stop hw hid | stopLate hw hid | fail hw hid | failSaving hw hid
  | complete hw hid => exact absurd hid (hs.not_held H hjob hw)

theorem Matched.move (M : Matched s) (H : Inv s) (h : Move s l t) : Matched t := by
  intro entry hentry job hjob
  rcases held_move h hentry with hold | ⟨jobId, data, user, position, rfl, hnew⟩
  · obtain ⟨job₀, hjob₀⟩ : ∃ job₀, s.job? entry.jobId = some job₀ := by
      rcases hold with hmem | ⟨await, hw⟩
      · obtain ⟨job₀, hjob₀, -⟩ := H.queued_of_mem hmem
        exact ⟨job₀, hjob₀⟩
      · obtain ⟨job₀, hjob₀, -⟩ := H.held hw
        exact ⟨job₀, hjob₀⟩
    obtain ⟨job₁, hjob₁, hchange⟩ := move_change H h hjob₀
    cases hjob.symm.trans hjob₁
    obtain ⟨huser, htarget⟩ := M entry hold job₀ hjob₀
    exact ⟨hchange.userId_eq.trans huser, hchange.target_eq.trans htarget⟩
  · cases hjob.symm.trans hnew
    exact ⟨rfl, rfl⟩

/-! ## The end of an analysis -/

/-- What is left of a job when `run_scan_job` files its report: it is completed with the report,
which has the id of the scan in it, or it failed after that. -/
def FiledAs (report : Json) (scanId : Nat) (job : ScanJob) : Prop :=
  job.status = .failed ∨ job.status = .completed ∧ ∃ result, job.result = some result ∧
    result.get "scan_id" = .ok (.int scanId) ∧
      ∀ key, key ≠ "scan_id" → result.get key = report.get key

/-- The end of an analysis: no report is saved and the job does not complete, or the report is
filed under the id it was saved with. -/
inductive Ends (s : ScanState) (entry : QueueEntry) (saved : Except PyError Nat) :
    Option Json → ScanState → Prop where
  | drops {report : Option Json} (f : ScanJob → ScanJob)
      (h : ∀ r, report = some r → ∃ e, saved = .error e)
      (hstatus : ∀ job, (f job).status ≠ .completed) :
      Ends s entry saved report { s.modifyJob entry.jobId f with worker := .waiting }
  | files {report : Json} {scanId : Nat} {es : List Effect} (f : ScanJob → ScanJob)
      (hsaved : saved = .ok scanId) (hes : es.filterMap filed? = [(entry.jobId, scanId)])
      (hjob : ∀ job, FiledAs report scanId (f job)) :
      Ends s entry saved (some report) { s.modifyJob entry.jobId f with
        worker := .waiting
        effects := s.effects ++ es }

theorem finishRun_ends (s : ScanState) (entry : QueueEntry) (outcome : AnalyzeOutcome)
    (saved : Except PyError Nat) (alerted : Except PyError Unit) :
    Ends s entry saved (reportToSave s entry outcome)
      (finishRun s entry outcome saved alerted) := by
  cases outcome with
  | raised e => exact .drops (·.fail e) (fun _ h => by cases h) fun _ h => by cases h
  | returned result =>
    simp only [finishRun, reportToSave]
    split
    · exact .drops (·.stop "Scan cancelled after analysis") (fun _ h => by cases h)
        fun _ h => by cases h
    · cases hprofile : result.setItem "profile" (.str entry.profile) with
      | error e => exact .drops (·.fail e) (fun _ h => by cases h) fun _ h => by cases h
      | ok report =>
        cases saved with
        | error e =>
          simp only [failRun, updateJobProgress, modifyJob, Dict.modify_modify]
          exact .drops (fun job => job.announceSaving.fail e) (fun _ _ => ⟨e, rfl⟩) fun _ h => by
            cases h
        | ok scanId =>
          obtain ⟨entries, -, rfl⟩ := Json.setItem_eq_obj hprofile
          have hset : Json.setItem (.obj (Json.setEntry "profile" (.str entry.profile) entries))
            "scan_id" (.int scanId) = .ok (.obj (Json.setEntry "scan_id" (.int scanId)
              (Json.setEntry "profile" (.str entry.profile) entries))) := rfl
          simp only [hset, Except.toOption]
          have hfiled : ∀ job : ScanJob, FiledAs
              (.obj (Json.setEntry "profile" (.str entry.profile) entries)) scanId
              (job.complete (.obj (Json.setEntry "scan_id" (.int scanId)
                (Json.setEntry "profile" (.str entry.profile) entries)))) := by
            refine fun job => .inr ⟨rfl, _, rfl, ?_, fun key hkey => ?_⟩
            · simp [Json.get, Json.lookup_setEntry]
            · rw [Json.get, Json.get, Json.lookup_setEntry, if_neg hkey]
          split
          · simp only [completeRun, updateJobProgress, modifyJob, emit, Dict.modify_modify]
            exact .files _ rfl rfl hfiled
          · simp only [completeRun, updateJobProgress, modifyJob, emit, Dict.modify_modify,
              List.append_assoc]
            exact .files _ rfl rfl hfiled
          · simp only [failRun, updateJobProgress, modifyJob, emit, Dict.modify_modify,
              List.append_assoc]
            exact .files (fun job => job.announceSaving.fail _) rfl rfl fun _ => .inl rfl

/-- Every other step files nothing and completes no job. -/
theorem move_quiet (H : Inv s) (h : Move s l t) (hl : ∀ outcome saved alerted,
    l ≠ .finish outcome saved alerted) :
    filed t = filed s ∧ ∀ id, t.completed? id = s.completed? id := by
  cases h with
  | same | startup | skip => exact ⟨rfl, fun _ => rfl⟩
  | submit hq fresh position =>
    refine ⟨rfl, fun id => ?_⟩
    simp only [completed?, job?, Dict.get?_insertNew]
    split
    · rename_i hid
      subst hid
      rw [Dict.get?_eq_none.mpr fresh]
      rfl
    · rfl
  | refresh =>
    refine ⟨rfl, fun id => ?_⟩
    simp only [completed?, job?, modifyJob_scanJobs, Dict.get?_modify]
    split
    · rename_i hid
      subst hid
      cases s.scanJobs.get? id <;> rfl
    · rfl
  | cancelQueued hjob hstatus | cancelRunning hjob hstatus =>
    refine ⟨rfl, completed?_modify _ _ _ (fun job' hjob' => ?_) fun _ _ h => by cases h⟩
    cases hjob.symm.trans hjob'
    simp [hstatus]
  | refuse hw hq | start hw hq =>
    obtain ⟨job, hjob, hstatus, _⟩ := H.queued_head hq
    refine ⟨?_, completed?_modify _ _ _ (fun job' hjob' => ?_) fun _ _ h => by cases h⟩
    · simp [filed, filed?]
    · cases hjob.symm.trans hjob'
      simp [hstatus]
  | advance hw =>
    exact ⟨rfl, completed?_modify _ _ _ (fun _ hjob => H.held_not_completed hw hjob) fun _ h => h⟩
  | analyze hw =>
    refine ⟨?_, completed?_modify _ _ _ (fun _ hjob => H.held_not_completed hw hjob) fun _ h => h⟩
    simp [filed, filed?]
  | stop hw | stopBeforeAnalysis hw =>
    exact ⟨rfl, completed?_modify _ _ _ (fun _ hjob => H.held_not_completed hw hjob)
      fun _ _ h => by cases h⟩
  | stopAfterAnalysis | failAnalysis | failReport | failSave | failAlert | complete =>
    exact absurd rfl (hl _ _ _)

end ThreatScanner.Scan
