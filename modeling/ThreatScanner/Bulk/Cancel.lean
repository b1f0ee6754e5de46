import ThreatScanner.Bulk.Failures
import ThreatScanner.Bulk.Phase

/-!
# Cancelling a bulk scan

What a run has done to the outside is read off its steps: the targets `analyze` was called for
(`analyzeCall`) and the targets whose scan was saved (`scanSave`). After a cancellation that is
accepted while the job is running no further target is analyzed, and at the end the items, the
calls and the saved scans agree.
-/

namespace ThreatScanner.Bulk

open Transition

variable {cfg : Config} {s t : BulkState} {scan : Scan} {i : Nat} {task task' : Task} {l : Label}

/-! ## Calls and saved scans -/

/-- The target `analyze` is called for in a step. -/
def analyzeCall (s : BulkState) : Label → List Nat
  | .pass i => if s.job.cancelRequested then [] else [i]
  | _ => []

/-- The target whose scan `save_scan_result` stores in a step. -/
def scanSave (cfg : Config) (s : BulkState) : Label → List Nat
  | .analyzed i =>
    match cfg.scans[i]?, s.tasks[i]? with
    | some scan, some .analyzing =>
      match afterAnalysis cfg scan with
      | .ok (_, false) => if scan.effects.saved.isOk then [i] else []
      | _ => []
    | _, _ => []
  | .archived i =>
    match cfg.scans[i]?, s.tasks[i]? with
    | some scan, some (.archiving result) =>
      if (withArchive scan result).isOk && scan.effects.saved.isOk then [i] else []
    | _, _ => []
  | _ => []

/-- The targets `analyze` is called for in a run, in order. -/
def analyzeCalls (cfg : Config) : BulkState → List Label → List Nat :=
  trace (BulkState.step cfg) analyzeCall

/-- The targets whose scans are saved in a run, in order. -/
def savedScans (cfg : Config) : BulkState → List Label → List Nat :=
  trace (BulkState.step cfg) (scanSave cfg)

/-- The task has called `analyze`. -/
def Task.begun : Task → Bool
  | waiting | skipped => false
  | _ => true

/-- The task has left its `try` block. -/
def Task.left : Task → Bool
  | recorded | raised => true
  | _ => false

/-- The scan is saved when its task goes through the `try` block. -/
def saves (cfg : Config) (scan : Scan) : Bool :=
  (resultToSave cfg scan).isOk && scan.effects.saved.isOk

/-- Task `i` is in a state that satisfies `p`. -/
def BulkState.taskIn (s : BulkState) (p : Task → Bool) (i : Nat) : Prop :=
  (s.tasks[i]?).any p = true

theorem any_set {p : Task → Bool} {tasks : List Task} {j : Nat} (h : tasks[j]? = some task) :
    ((tasks.set j task')[i]?).any p = if j = i then p task' else (tasks[i]?).any p := by
  by_cases hij : j = i
  · subst hij
    rw [if_pos rfl, List.getElem?_set_self (List.getElem?_eq_some_iff.mp h).1, Option.any_some]
  · rw [if_neg hij, List.getElem?_set_ne hij]

/-- Moving a task between states that `p` does not tell apart. -/
theorem taskIn_of_set {p : Task → Bool} {j : Nat} (h : s.tasks[j]? = some task)
    (ht : t.tasks = s.tasks.set j task') (hp : p task' = p task) :
    t.taskIn p i ↔ s.taskIn p i := by
  simp only [BulkState.taskIn, ht, any_set h]
  split
  · rename_i hij
    rw [hp, ← hij, h, Option.any_some]
  · rfl

/-- Moving a task into `p`. -/
theorem taskIn_of_set_true {p : Task → Bool} {j : Nat} (h : s.tasks[j]? = some task)
    (ht : t.tasks = s.tasks.set j task') (hp : p task' = true) :
    t.taskIn p i ↔ s.taskIn p i ∨ i = j := by
  simp only [BulkState.taskIn, ht, any_set h]
  split
  · rename_i hij
    simp [hp, hij]
  · rename_i hij
    simp [Ne.symm hij]

theorem Ends.analyzeCall (h : Ends cfg s i scan l) : analyzeCall s l = [] := by
  cases h <;> rfl

theorem holds_begun (h : task.holds) : task.begun = true := by
  cases task <;> first | rfl | cases h

/-- A step calls `analyze` for the task that it makes begin. -/
theorem Turn.begun (h : Turn cfg s l t) :
    t.taskIn Task.begun i ↔ s.taskIn Task.begun i ∨ i ∈ analyzeCall s l := by
  cases h with
  | launch | fail | stop | complete | cancel | cancelEnded | refuse =>
    simp [analyzeCall, BulkState.taskIn]
  | skip _ htask _ hcancel =>
    refine (taskIn_of_set htask rfl (by rfl)).trans ?_
    simp [analyzeCall, hcancel]
  | pass _ htask _ hcancel =>
    refine (taskIn_of_set_true htask rfl rfl).trans ?_
    simp [analyzeCall, hcancel]
  | archive _ htask =>
    refine (taskIn_of_set htask rfl (by rfl)).trans ?_
    simp [analyzeCall]
  | record _ hends | raise _ hends =>
    obtain ⟨task, htask, hholds⟩ := hends.holds
    refine (taskIn_of_set htask rfl (holds_begun hholds).symm).trans ?_
    simp [hends.analyzeCall]

theorem Ends.scanSave (h : Ends cfg s i scan l) (hscan : cfg.scans[i]? = some scan) :
    scanSave cfg s l = if saves cfg scan then [i] else [] := by
  cases h with
  | analyzed htask hafter =>
    rcases ho : afterAnalysis cfg scan with e | ⟨result, archive⟩
    · simp only [Bulk.scanSave, hscan, htask, saves, resultToSave, ho]
      rfl
    · cases archive with
      | true => exact (hafter result ho).elim
      | false =>
        simp only [Bulk.scanSave, hscan, htask, saves, resultToSave, ho]
        rfl
  | archived htask hafter =>
    simp only [Bulk.scanSave, hscan, htask, saves, resultToSave, hafter]
    rfl

/-- The task of target `i` has saved its scan. -/
def BulkState.scanSaved (cfg : Config) (s : BulkState) (i : Nat) : Prop :=
  s.taskIn Task.left i ∧ ∃ scan, cfg.scans[i]? = some scan ∧ saves cfg scan = true

/-- A step saves the scan of the task that it takes through the `try` block. -/
theorem Turn.scanSaved (h : Turn cfg s l t) :
    t.scanSaved cfg i ↔ s.scanSaved cfg i ∨ i ∈ scanSave cfg s l := by
  cases h with
  | launch | fail | stop | complete | cancel | cancelEnded | refuse =>
    simp [scanSave, BulkState.scanSaved, BulkState.taskIn]
  | skip _ htask | pass _ htask =>
    refine (and_congr_left' (taskIn_of_set htask rfl (by rfl))).trans ?_
    simp [scanSave, BulkState.scanSaved]
  | archive hscan htask hafter =>
    refine (and_congr_left' (taskIn_of_set htask rfl (by rfl))).trans ?_
    simp [scanSave, BulkState.scanSaved, hscan, htask, hafter]
  | record hscan hends | raise hscan hends =>
    obtain ⟨task, htask, hholds⟩ := hends.holds
    refine (and_congr_left' (taskIn_of_set_true htask rfl rfl)).trans ?_
    rw [hends.scanSave hscan, or_and_right]
    refine or_congr_right ?_
    split
    · rename_i hsaves
      rw [List.mem_singleton]
      exact ⟨fun h => h.1, fun h => ⟨h, _, h ▸ hscan, hsaves⟩⟩
    · rename_i hsaves
      simp only [List.not_mem_nil, iff_false, not_and, not_exists]
      rintro rfl scan' hscan' h
      cases hscan.symm.trans hscan'
      exact hsaves h

/-! ## Scans that end in the ordinary way -/

/-- What `analyze` and `save_scan_result` raise has a message, and once the scan is saved the alert
and the summary of its report return. -/
structure Ordinary (cfg : Config) (scan : Scan) : Prop where
  messages : ∀ e, scan.effects.analysis = .error e ∨ scan.effects.saved = .error e →
    e.message ≠ ""
  alerted : scan.effects.alerted = .ok ()
  summarized : ∀ result scanId kept, resultToSave cfg scan = .ok result →
    scan.effects.saved = .ok scanId → result.setItem "scan_id" (.int scanId) = .ok kept →
    ∃ summary, summarizeBulkResult cfg.upper scan.target kept = .ok summary

theorem Ordinary.not_silent (h : Ordinary cfg scan) : ¬Silent cfg scan := by
  intro hsilent
  cases silent_iff.mp hsilent with
  | analysis ha => exact h.messages _ (.inl ha) rfl
  | saved _ hs => exact h.messages _ (.inr hs) rfl
  | alerted _ _ _ _ ha => cases h.alerted.symm.trans ha

/-- The result that is saved is a dictionary. -/
theorem resultToSave_eq_obj {result : Json} (h : resultToSave cfg scan = .ok result) :
    ∃ entries, result = .obj entries := by
  obtain ⟨⟨analyzed, archive⟩, hafter, h⟩ := bind_eq_ok.mp h
  cases archive with
  | true =>
    obtain ⟨entries, -, rfl⟩ := Json.setItem_eq_obj h
    exact ⟨_, rfl⟩
  | false =>
    cases h
    obtain ⟨_, -, hafter⟩ := bind_eq_ok.mp hafter
    obtain ⟨profiled, hset, hafter⟩ := bind_eq_ok.mp hafter
    obtain ⟨entries, -, rfl⟩ := Json.setItem_eq_obj hset
    split at hafter
    · obtain ⟨_, -, hafter⟩ := bind_eq_ok.mp hafter
      obtain ⟨_, -, hafter⟩ := bind_eq_ok.mp hafter
      obtain ⟨_, -, hafter⟩ := bind_eq_ok.mp hafter
      obtain ⟨rfl, -⟩ := Prod.mk.inj (Except.ok.inj hafter)
      exact ⟨_, rfl⟩
    · cases hafter
      exact ⟨_, rfl⟩

theorem isOk_iff {ε α : Type} {x : Except ε α} : x.isOk = true ↔ ∃ a, x = .ok a := by
  cases x <;> simp [Except.isOk, Except.toBool]

/-- An ordinary scan ends well when it is saved. -/
theorem Ordinary.outcome_ok (h : Ordinary cfg scan) :
    (∃ r, outcome cfg scan = .ok r) ↔ saves cfg scan = true := by
  rw [saves, Bool.and_eq_true, isOk_iff, isOk_iff]
  constructor
  · rintro ⟨r, hr⟩
    obtain ⟨result, hresult, hr⟩ := bind_eq_ok.mp hr
    obtain ⟨scanId, hsaved, -⟩ := bind_eq_ok.mp hr
    exact ⟨⟨result, hresult⟩, scanId, hsaved⟩
  · rintro ⟨⟨result, hresult⟩, scanId, hsaved⟩
    obtain ⟨entries, rfl⟩ := resultToSave_eq_obj hresult
    obtain ⟨summary, hsummary⟩ := h.summarized _ scanId _ hresult hsaved rfl
    have halert : ∀ kept, alert scan kept = .ok () := by
      intro kept
      unfold alert
      rw [h.alerted, ite_self]
    have hend : saveAndSummarize cfg scan (.obj entries) =
        .ok (.obj (Json.setEntry "scan_id" (.int scanId) entries), summary) := by
      simp only [saveAndSummarize, hsaved, bind, Except.bind, Json.setItem, halert, hsummary]
    exact ⟨_, bind_eq_ok.mpr ⟨_, hresult, hend⟩⟩

/-! ## After the cancellation -/

structure Cancelled (s : BulkState) : Prop where
  started : s.runner ≠ .pending
  requested : s.job.cancelRequested = true
  status : s.job.status = .cancelled

section Run
variable (hloud : ∀ scan ∈ cfg.scans, ¬Silent cfg scan)
include hloud

theorem Sound.not_escaped (S : Sound cfg s) : s.escaped = none := by
  by_contra hne
  obtain ⟨i, scan, hscan, htask⟩ := S.closing.escaped hne
  exact hloud scan (List.mem_of_getElem? hscan) (S.tracks.justified i scan _ hscan htask)

/-- A job that was cancelled while it was running stays cancelled. -/
theorem Turn.cancelled (S : Sound cfg s) (hc : Cancelled s) (h : Turn cfg s l t) :
    Cancelled t := by
  cases h with
  | launch hrunner => exact (hc.started hrunner).elim
  | fail _ hescaped => cases (S.not_escaped hloud).symm.trans hescaped
  | complete _ _ _ hcancel => cases hc.requested.symm.trans hcancel
  | stop => exact ⟨nofun, hc.requested, rfl⟩
  | pass _ _ _ hcancel => cases hc.requested.symm.trans hcancel
  | cancel => exact ⟨hc.started, rfl, rfl⟩
  | cancelEnded => exact ⟨hc.started, rfl, hc.status⟩
  | skip | archive | record | raise | refuse => exact ⟨hc.started, hc.requested, hc.status⟩

theorem cancelled_exec {ls : List Label} (S : Sound cfg s) (hc : Cancelled s)
    (hrun : exec (BulkState.step cfg) s ls = some t) :
    Cancelled t ∧ analyzeCalls cfg s ls = [] := by
  have hinv : analyzeCalls cfg s ls = [] ∧ Sound cfg t ∧ Cancelled t :=
    trace_invariant (fun os s => os = [] ∧ Sound cfg s ∧ Cancelled s) ?_ ⟨rfl, S, hc⟩ hrun
  · exact ⟨hinv.2.2, hinv.1⟩
  · rintro os s l t ⟨rfl, S, hc⟩ hstep
    obtain ⟨hturn, S'⟩ := S.step hstep
    refine ⟨?_, S', hturn.cancelled hloud S hc⟩
    cases l <;> simp [analyzeCall, hc.requested]

end Run

/-- The tasks that have begun are those `analyze` was called for. -/
theorem mem_analyzeCalls {ls : List Label} (S : Sound cfg s)
    (hnone : ∀ i, ¬s.taskIn Task.begun i) (hrun : exec (BulkState.step cfg) s ls = some t) :
    i ∈ analyzeCalls cfg s ls ↔ t.taskIn Task.begun i := by
  have hinv : Sound cfg t ∧ ∀ i, i ∈ analyzeCalls cfg s ls ↔ t.taskIn Task.begun i :=
    trace_invariant (fun os s => Sound cfg s ∧ ∀ i, i ∈ os ↔ s.taskIn Task.begun i) ?_
      ⟨S, fun i => by simp [hnone i]⟩ hrun
  · exact hinv.2 i
  rintro os s l t ⟨S, h⟩ hstep
  obtain ⟨hturn, S'⟩ := S.step hstep
  exact ⟨S', fun i => by rw [List.mem_append, h i, hturn.begun]⟩

/-- The scans that are saved are those of the tasks that went through their `try` block. -/
theorem mem_savedScans {ls : List Label} (S : Sound cfg s)
    (hnone : ∀ i, ¬s.taskIn Task.left i) (hrun : exec (BulkState.step cfg) s ls = some t) :
    i ∈ savedScans cfg s ls ↔ t.scanSaved cfg i := by
  have hinv : Sound cfg t ∧ ∀ i, i ∈ savedScans cfg s ls ↔ t.scanSaved cfg i :=
    trace_invariant (fun os s => Sound cfg s ∧ ∀ i, i ∈ os ↔ s.scanSaved cfg i) ?_
      ⟨S, fun i => by simp [BulkState.scanSaved, hnone i]⟩ hrun
  · exact hinv.2 i
  rintro os s l t ⟨S, h⟩ hstep
  obtain ⟨hturn, S'⟩ := S.step hstep
  exact ⟨S', fun i => by rw [List.mem_append, h i, hturn.scanSaved]⟩

theorem not_taskIn_start {p : Task → Bool} {job : BulkJob} (hp : p .waiting = false) (i : Nat) :
    ¬(BulkState.start cfg job).taskIn p i := by
  simp only [BulkState.taskIn, BulkState.start, List.getElem?_map]
  cases cfg.scans[i]? <;> simp [hp]

/-- The items, the calls of `analyze` and the saved scans agree about target `i`. -/
structure TargetAgrees (s : BulkState) (calls saved : List Nat) (i : Nat) (target : String) :
    Prop where
  none_iff : s.job.items[i]? = some none ↔ i ∉ calls
  ended : ∀ item, s.job.items[i]? = some (some item) →
    HasStatus target "completed" item ∨ HasStatus target "failed" item
  saved_iff : i ∈ saved ↔
    ∃ item, s.job.items[i]? = some (some item) ∧ HasStatus target "completed" item

theorem HasStatus.unique {target status status' : String} {item : Json}
    (h : HasStatus target status item) (h' : HasStatus target status' item) : status = status' := by
  have := h.2.symm.trans h'.2
  rwa [Except.ok.injEq, Json.str.injEq] at this

/-- At the end of a run of ordinary scans the three agree about every target. -/
theorem Sound.targetAgrees (S : Sound cfg s) (hord : ∀ scan ∈ cfg.scans, Ordinary cfg scan)
    (hended : s.tasks.all Task.ended = true) (hscan : cfg.scans[i]? = some scan)
    {calls saved : List Nat} (hcalls : i ∈ calls ↔ s.taskIn Task.begun i)
    (hsaved : i ∈ saved ↔ s.scanSaved cfg i) : TargetAgrees s calls saved i scan.target := by
  have hordinary := hord scan (List.mem_of_getElem? hscan)
  have hraised : ∀ (i : Nat) scan, cfg.scans[i]? = some scan → s.tasks[i]? ≠ some .raised :=
    fun i scan hscan htask => (hord scan (List.mem_of_getElem? hscan)).not_silent
      (S.tracks.justified i scan _ hscan htask)
  rcases S.recorded_or_skipped hended hraised hscan with ⟨htask, hitem⟩ | ⟨htask, hitem, -⟩
  · have hbegun : i ∈ calls := hcalls.mpr (by rw [BulkState.taskIn, htask]; rfl)
    have hleft : s.taskIn Task.left i := by rw [BulkState.taskIn, htask]; rfl
    have hsaves : i ∈ saved ↔ saves cfg scan = true := by
      rw [hsaved, BulkState.scanSaved, and_iff_right hleft]
      exact ⟨fun ⟨scan', hscan', h⟩ => Option.some.inj (hscan.symm.trans hscan') ▸ h,
        fun h => ⟨scan, hscan, h⟩⟩
    refine ⟨by simp [hitem, hbegun], ?_, ?_⟩
    · intro item h
      cases hitem.symm.trans h
      rcases recordOf_hasStatus cfg scan with ⟨h, -⟩ | ⟨h, -⟩
      · exact .inl h
      · exact .inr h
    · rw [hsaves, ← hordinary.outcome_ok]
      constructor
      · rintro ⟨r, hr⟩
        rcases recordOf_hasStatus cfg scan with ⟨h, -⟩ | ⟨-, e, he⟩
        · exact ⟨_, hitem, h⟩
        · cases hr.symm.trans he
      · rintro ⟨item, h, hstatus⟩
        cases hitem.symm.trans h
        rcases recordOf_hasStatus cfg scan with ⟨-, hr⟩ | ⟨h, -⟩
        · exact hr
        · exact absurd (h.unique hstatus) (by decide)
  · have hbegun : i ∉ calls := by
      rw [hcalls, BulkState.taskIn, htask]
      decide
    have hnot : i ∉ saved := by
      rw [hsaved, BulkState.scanSaved, BulkState.taskIn, htask]
      exact fun h => by cases h.1
    refine ⟨by simp [hitem, hbegun], ?_, ?_⟩
    · intro item h
      cases hitem.symm.trans h
    · refine iff_of_false hnot ?_
      rintro ⟨item, h, -⟩
      cases hitem.symm.trans h

/-- A job that is cancelled while it is running starts no further analysis, and forgets none: when
every task has ended the job is cancelled, and the items, the calls and the saved scans agree. -/
theorem cancelled_bulk_scan {user : Int} {accepted : BulkJob} {ls ms : List Label}
    (hord : ∀ scan ∈ cfg.scans, Ordinary cfg scan)
    (hbefore : exec (BulkState.step cfg) (.start cfg cfg.queuedJob) ls = some s)
    (hrunning : s.job.status = .running) (haccepted : bulkScanCancel s.job user = .ok accepted)
    (hafter : exec (BulkState.step cfg) { s with job := accepted } ms = some t) :
    analyzeCalls cfg { s with job := accepted } ms = [] ∧
    (t.tasks.all Task.ended = true → t.job.status = .cancelled ∧
      ∀ (i : Nat) scan, cfg.scans[i]? = some scan → TargetAgrees t
        (analyzeCalls cfg (.start cfg cfg.queuedJob) (ls ++ .cancel user :: ms))
        (savedScans cfg (.start cfg cfg.queuedJob) (ls ++ .cancel user :: ms)) i scan.target) := by
  have hloud : ∀ scan ∈ cfg.scans, ¬Silent cfg scan := fun scan h => (hord scan h).not_silent
  have S := sound_exec sound_start hbefore
  have hstep : s.step cfg (.cancel user) = some { s with job := accepted } := by
    simp only [BulkState.step, haccepted]
  have hrun := exec_append_some.mpr ⟨s, hbefore, exec_cons_some.mpr ⟨_, hstep, hafter⟩⟩
  have hc : Cancelled { s with job := accepted } := by
    unfold bulkScanCancel at haccepted
    split at haccepted
    · cases haccepted
    · rw [if_pos (by simp [hrunning])] at haccepted
      cases haccepted
      exact ⟨fun h => (S.phased.pending h).1 hrunning, rfl, rfl⟩
  obtain ⟨hcancelled, hnone⟩ := cancelled_exec hloud (S.step hstep).2 hc hafter
  refine ⟨hnone, fun hended => ⟨hcancelled.status, fun i scan hscan => ?_⟩⟩
  exact (sound_exec sound_start hrun).targetAgrees hord hended hscan
    (mem_analyzeCalls sound_start (not_taskIn_start rfl) hrun)
    (mem_savedScans sound_start (not_taskIn_start rfl) hrun)

/-- The scans of `timeoutConfig` are ordinary when the exception has a text. -/
theorem timeoutConfig_ordinary :
    ∀ scan ∈ (timeoutConfig "timed out").scans, Ordinary (timeoutConfig "timed out") scan := by
  intro scan hscan
  rcases List.mem_cons.mp hscan with rfl | hscan
  · refine ⟨?_, rfl, fun result scanId kept hresult => by cases hresult⟩
    rintro e (h | h)
    · cases h; decide
    · cases h
  · cases List.mem_singleton.mp hscan
    refine ⟨?_, rfl, fun result scanId kept hresult hsaved hkept => ?_⟩
    · rintro e (h | h) <;> cases h
    · cases hresult
      cases hsaved
      cases hkept
      exact ⟨_, rfl⟩

/-- The job is cancelled while the second target is analyzed; the first one is then skipped. -/
theorem cancelled_bulk_scan_skips : ∃ s accepted t,
    exec (BulkState.step (timeoutConfig "timed out"))
      (.start (timeoutConfig "timed out") timeoutJob) [.launch, .pass 1] = some s ∧
    bulkScanCancel s.job 1 = .ok accepted ∧
    exec (BulkState.step (timeoutConfig "timed out")) { s with job := accepted }
      [.analyzed 1, .pass 0, .finish] = some t ∧
    t.job.status = .cancelled ∧ t.job.items.map Option.isSome = [false, true] ∧
    analyzeCalls (timeoutConfig "timed out") { s with job := accepted }
      [.analyzed 1, .pass 0, .finish] = [] := by
  obtain ⟨s, hs⟩ : ∃ s, exec (BulkState.step (timeoutConfig "timed out"))
    (.start (timeoutConfig "timed out") timeoutJob) [.launch, .pass 1] = some s := ⟨_, rfl⟩
  have hrunning : s.job.status = .running := by cases hs; rfl
  obtain ⟨accepted, haccepted⟩ : ∃ accepted, bulkScanCancel s.job 1 = .ok accepted := by
    cases hs; exact ⟨_, rfl⟩
  obtain ⟨t, ht, hend⟩ : ∃ t, exec (BulkState.step (timeoutConfig "timed out"))
      { s with job := accepted } [.analyzed 1, .pass 0, .finish] = some t ∧
      (t.tasks.all Task.ended = true ∧ t.job.items.map Option.isSome = [false, true]) := by
    cases hs; cases haccepted; exact ⟨_, rfl, rfl, rfl⟩
  have h := cancelled_bulk_scan timeoutConfig_ordinary hs hrunning haccepted ht
  exact ⟨s, accepted, t, hs, haccepted, ht, (h.2 hend.1).1, hend.2, h.1⟩

end ThreatScanner.Bulk
