import ThreatScanner.Scan.Change

/-!
# The progress of a job

The progress of a job is that of the await `run_scan_job` has reached for it, and 100 when it is
completed. What a step writes is never less than what was there, and the progress, the status
`completed` and the result are written together.
-/

namespace ThreatScanner.Scan

open ScanState Transition

variable {s t : ScanState} {l : Label} {id : JobId} {job job' : ScanJob} {await await' : Await}

theorem Await.progress_lt (await : Await) : await.progress < 95 := by
  cases await <;> decide

theorem Await.progress_next (h : await.next = some await') : await.progress < await'.progress := by
  cases await <;> cases h <;> decide

namespace ScanJob

/-- The progress of a job agrees with its status and with its result. -/
structure Metered (job : ScanJob) : Prop where
  queued : job.status = .queued → job.progress = 0
  unfinished : job.status ≠ .completed → job.progress < 100 ∧ job.result = none
  finished : job.status = .completed → job.progress = 100 ∧
    ∃ result scanId, job.result = some result ∧ result.get "scan_id" = .ok (.int scanId)

namespace Metered

theorem new {data : ScanRequest} {user : UserId} {position : Option Nat} :
    Metered { newJob id data user with queuePosition := position } where
  queued _ := rfl
  unfinished _ := ⟨by simp [newJob], rfl⟩
  finished h := by cases h

/-- Writing a progress below 100 to a job that is not finished leaves it so. -/
theorem rewrite (M : job.Metered) (hstatus : job.status ≠ .completed)
    (hqueued : job'.status ≠ .queued ∨ job'.progress = 0) (hstatus' : job'.status ≠ .completed)
    (hprogress : job'.progress < 100) (hresult : job'.result = job.result) : job'.Metered where
  queued h := hqueued.resolve_left fun hne => hne h
  unfinished _ := ⟨hprogress, hresult.trans (M.unfinished hstatus).2⟩
  finished h := (hstatus' h).elim

theorem of_complete {report : Json} {scanId : Int} (h : report.get "scan_id" = .ok (.int scanId)) :
    (job.complete report).Metered where
  queued hq := by cases hq
  unfinished hne := (hne rfl).elim
  finished _ := ⟨rfl, report, scanId, rfl, h⟩

end Metered

end ScanJob

/-- Every job is metered, and the job the worker holds shows the await that is reached. -/
structure Gauge (s : ScanState) : Prop where
  metered : ∀ {id job}, s.job? id = some job → job.Metered
  held : ∀ {entry await job}, s.worker = .busy entry await → s.job? entry.jobId = some job →
    job.progress = await.progress

theorem init_gauge : Gauge init where
  metered h := by cases h
  held h := by cases h

/-- The job the worker holds is not completed, and not queued. -/
theorem Inv.held_status {entry : QueueEntry} (H : Inv s) (hw : s.worker = .busy entry await)
    (hid : entry.jobId = id) (hjob : s.job? id = some job) :
    job.status ≠ .completed ∧ job.status ≠ .queued := by
  subst hid
  obtain ⟨job', hjob', hstatus⟩ := H.held hw
  cases hjob.symm.trans hjob'
  rcases hstatus with h | h <;> simp [h]

theorem Change.metered (H : Inv s) (G : Gauge s) (hjob : s.job? id = some job)
    (h : Change s id job l job') : job'.Metered := by
  have M := G.metered hjob
  cases h with
  | keep => exact M
  | refresh => exact ⟨M.queued, M.unfinished, M.finished⟩
  | cancelQueued hstatus =>
    exact M.rewrite (by simp [hstatus]) (.inr rfl) nofun (show 0 < 100 by decide) rfl
  | cancelRunning hstatus =>
    have hne : job.status ≠ .completed := by simp [hstatus]
    exact M.rewrite hne (.inl nofun) nofun (M.unfinished hne).1 rfl
  | start hstatus =>
    exact M.rewrite (by simp [hstatus]) (.inl nofun) nofun (show 10 < 100 by decide) rfl
  | announce hw hid =>
    obtain ⟨hne, hq⟩ := H.held_status hw hid hjob
    exact M.rewrite hne (.inl hq) hne ((Await.progress_lt _).trans (by decide)) rfl
  | stop hw hid =>
    obtain ⟨hne, -⟩ := H.held_status hw hid hjob
    exact M.rewrite hne (.inl nofun) nofun (M.unfinished hne).1 rfl
  | stopLate hw hid =>
    obtain ⟨hne, -⟩ := H.held_status hw hid hjob
    exact M.rewrite hne (.inl nofun) nofun (show 80 < 100 by decide) rfl
  | fail hw hid =>
    obtain ⟨hne, -⟩ := H.held_status hw hid hjob
    exact M.rewrite hne (.inl nofun) nofun (M.unfinished hne).1 rfl
  | failSaving hw hid =>
    obtain ⟨hne, -⟩ := H.held_status hw hid hjob
    exact M.rewrite hne (.inl nofun) nofun (show 95 < 100 by decide) rfl
  | complete hw hid hstatus hscan => exact .of_complete hscan

theorem Change.progress_le (G : Gauge s) (hjob : s.job? id = some job)
    (h : Change s id job l job') : job.progress ≤ job'.progress := by
  cases h with
  | keep | refresh | cancelRunning | stop | fail => exact le_rfl
  | cancelQueued hstatus | start hstatus =>
    rw [(G.metered hjob).queued hstatus]
    exact Nat.zero_le _
  | announce hw hid hnext =>
    subst hid
    rw [G.held hw hjob]
    exact (Await.progress_next hnext).le
  | stopLate hw hid =>
    subst hid
    rw [G.held hw hjob]
    exact show 65 ≤ 80 by decide
  | failSaving hw hid =>
    subst hid
    rw [G.held hw hjob]
    exact (Await.progress_lt _).le
  | complete hw hid =>
    subst hid
    rw [G.held hw hjob]
    exact (Await.progress_lt _).le.trans (show 95 ≤ 100 by decide)

/-- The job the worker holds after a step shows the await it has reached. -/
theorem move_held {entry : QueueEntry} (H : Inv s) (G : Gauge s) (h : Move s l t)
    (hw : t.worker = .busy entry await) (hjob : t.job? entry.jobId = some job) :
    job.progress = await.progress := by
  have hrefresh : ∀ {jobId : JobId} {f : ScanJob → ScanJob}, s.worker = .busy entry await →
      (s.modifyJob jobId f).job? entry.jobId = some job →
      (∀ job, (f job).progress = job.progress) → job.progress = await.progress := by
    intro jobId f hw hjob hf
    rcases Dict.get?_modify_eq_some.mp hjob with ⟨hid, job', hjob', rfl⟩ | ⟨-, hjob'⟩
    · rw [hf, G.held hw (hid ▸ hjob')]
    · exact G.held hw hjob'
  have hset : ∀ {f : ScanJob → ScanJob}, (s.modifyJob entry.jobId f).job? entry.jobId = some job →
      ∃ job', job = f job' := by
    intro f hjob
    rcases Dict.get?_modify_eq_some.mp hjob with ⟨-, job', -, rfl⟩ | ⟨hne, -⟩
    · exact ⟨job', rfl⟩
    · exact (hne rfl).elim
  cases h with
  | same => exact G.held hw hjob
  | startup => cases hw
  | submit hq fresh position =>
    obtain ⟨job', hjob', _⟩ := H.held hw
    cases (Dict.get?_insertNew_of_some fresh hjob').symm.trans hjob
    exact G.held hw hjob'
  | refresh => exact hrefresh hw hjob fun _ => rfl
  | cancelQueued hjob' hstatus =>
    rcases Dict.get?_modify_eq_some.mp hjob with ⟨hid, -⟩ | ⟨-, hjob⟩
    · obtain ⟨hne, hq⟩ := H.held_status hw hid hjob'
      exact (hq hstatus).elim
    · exact G.held hw hjob
  | cancelRunning => exact hrefresh hw hjob fun _ => rfl
  | skip hwait => cases hwait.symm.trans hw
  | refuse => cases hw
  | start =>
    cases hw
    obtain ⟨_, rfl⟩ := hset hjob
    rfl
  | advance | analyze =>
    cases hw
    obtain ⟨_, rfl⟩ := hset hjob
    rfl
  | _ => cases hw

theorem step_gauge (H : Inv s) (G : Gauge s) (h : step s l = some t) : Gauge t where
  metered := by
    intro id job hjob
    rcases move_change_back H (step_move h) hjob with ⟨job', hjob', hc⟩ | ⟨_, _, _, _, rfl⟩
    · exact hc.metered H G hjob'
    · exact .new
  held hw hjob := move_held H G (step_move h) hw hjob

theorem run_gauge {ls : List Label} (h : run ls = some s) : Gauge s :=
  (exec_invariant (fun s => Inv s ∧ Gauge s)
    (fun _ _ _ HG h => ⟨step_inv HG.1 h, step_gauge HG.1 HG.2 h⟩) ⟨init_inv, init_gauge⟩ h).2

/-- Every job of the first state is in the second, with no less progress. -/
def NeverLess (s t : ScanState) : Prop :=
  ∀ id job, s.job? id = some job → ∃ job', t.job? id = some job' ∧ job.progress ≤ job'.progress

theorem step_neverLess (H : Inv s) (G : Gauge s) (h : step s l = some t) : NeverLess s t := by
  intro id job hjob
  obtain ⟨job', hjob', hc⟩ := move_change H (step_move h) hjob
  exact ⟨job', hjob', hc.progress_le G hjob⟩

theorem NeverLess.trans {u : ScanState} (h : NeverLess s t) (h' : NeverLess t u) :
    NeverLess s u := by
  intro id job hjob
  obtain ⟨job', hjob', hle⟩ := h id job hjob
  obtain ⟨job'', hjob'', hle'⟩ := h' id job' hjob'
  exact ⟨job'', hjob'', hle.trans hle'⟩

theorem exec_neverLess {ls : List Label} (H : Inv s) (G : Gauge s)
    (h : exec step s ls = some t) : NeverLess s t :=
  exec_rel (fun s => Inv s ∧ Gauge s) NeverLess (fun _ _ job hjob => ⟨job, hjob, le_rfl⟩)
    (fun _ _ _ => NeverLess.trans) (fun _ _ _ HG h => ⟨step_inv HG.1 h, step_gauge HG.1 HG.2 h⟩)
    (fun _ _ _ HG h => step_neverLess HG.1 HG.2 h) ⟨H, G⟩ h

/-- What the browser reads off a job: the progress is a percentage, 100 stands for a completed job
and for a result, and the result has the id of the saved scan. -/
structure ScanJob.SoundProgress (job : ScanJob) : Prop where
  le_hundred : job.progress ≤ 100
  hundred_iff : job.progress = 100 ↔ job.status = .completed
  completed_iff : job.status = .completed ↔ job.result.isSome
  scan_id : ∀ result, job.result = some result →
    ∃ scanId, result.get "scan_id" = .ok (.int scanId)

theorem ScanJob.Metered.sound (M : job.Metered) : job.SoundProgress := by
  by_cases hstatus : job.status = .completed
  · obtain ⟨hprogress, result, scanId, hresult, hscan⟩ := M.finished hstatus
    refine ⟨hprogress.le, by simp [hprogress, hstatus], by simp [hresult, hstatus], ?_⟩
    intro result' hresult'
    cases hresult.symm.trans hresult'
    exact ⟨scanId, hscan⟩
  · obtain ⟨hprogress, hresult⟩ := M.unfinished hstatus
    refine ⟨hprogress.le, by simp [hprogress.ne, hstatus], by simp [hresult, hstatus], ?_⟩
    intro result' hresult'
    cases hresult.symm.trans hresult'

/-- In every state of every run the progress of every job is sound, and no continuation of the run
makes it less. -/
theorem progress_sound {ls : List Label} (h : run ls = some s) :
    (∀ id job, s.job? id = some job → job.SoundProgress) ∧
    ∀ ms t, exec step s ms = some t → NeverLess s t :=
  ⟨fun _ _ hjob => ((run_gauge h).metered hjob).sound,
    fun _ _ ht => exec_neverLess (run_inv h) (run_gauge h) ht⟩

/-- A scan that runs to its end. -/
def completedScan : List Label :=
  [.startup, .scanAsync 1 { target := "example.com" } 7, .take, .wake, .wake, .wake, .wake, .wake,
    .finish (.returned (.obj [("risk", .str "LOW")])) (.ok 12) (.ok ())]

theorem progress_sound_completed : ∃ s, run completedScan = some s ∧
    s.status? 1 = some .completed ∧
    (∀ id job, s.job? id = some job → job.SoundProgress) ∧
    ∀ ms t, exec step s ms = some t → NeverLess s t := by
  have hc : (run completedScan).bind (·.status? 1) = some .completed := by decide
  obtain ⟨s, hs, hcs⟩ := Option.bind_eq_some_iff.mp hc
  exact ⟨s, hs, hcs, progress_sound hs⟩

end ThreatScanner.Scan
