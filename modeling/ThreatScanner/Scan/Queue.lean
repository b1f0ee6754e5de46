import ThreatScanner.Scan.Invariant
import Mathlib.Data.List.TakeWhile

/-!
# The queue and the job table agree

The queue holds exactly the queued jobs, in order of submission, and one job at most is running,
the one the worker holds (`QueueAgrees`). The place of a waiting job never grows, and the jobs
start in the order in which they were submitted.
-/

namespace ThreatScanner.Scan

open ScanState Transition

variable {id jobId : JobId}

/-- The ids of the accepted submissions of a run; a submission is refused before `startup`. -/
def submitted : Bool → List Label → List JobId
  | _, [] => []
  | _, .startup :: ls => submitted true ls
  | true, .scanAsync jobId _ _ :: ls => jobId :: submitted true ls
  | ready, _ :: ls => submitted ready ls

namespace ScanState

/-- The jobs in the order in which they started running. -/
def startedIds (s : ScanState) : List JobId :=
  s.effects.filterMap fun
    | .started jobId => some jobId
    | _ => none

/-- The number of queued jobs submitted before the job. -/
def queuedBefore (s : ScanState) (jobId : JobId) : Nat :=
  (s.scanJobs.keys.takeWhile (· ≠ jobId)).countP fun id => s.status? id = some .queued

end ScanState

structure QueueAgrees (s : ScanState) : Prop where
  queued_iff : ∀ id, s.status? id = some .queued ↔ s.queue.countP (·.jobId = id) = 1
  entry_queued : ∀ entry ∈ s.queue, s.status? entry.jobId = some .queued
  running_held : ∀ id, s.status? id = some .running →
    ∃ entry await, s.worker = .busy entry await ∧ entry.jobId = id
  running_unique : ∀ id id', s.status? id = some .running → s.status? id' = some .running →
    id = id'
  position : ∀ id, s.status? id = some .queued →
    getQueuePosition s id = some (s.queuedBefore id + 1)

/-! ## The agreement in one state -/

theorem status?_queued {s : ScanState} :
    s.status? id = some .queued ↔ id ∈ s.queuedIds := by
  simp only [status?, job?, queuedIds, Dict.mem_keysWhere, Option.map_eq_some_iff,
    decide_eq_true_eq]

theorem queuedIds_eq_filter (s : ScanState) :
    s.queuedIds = s.scanJobs.keys.filter fun id => s.status? id = some .queued := by
  have hstatus : ∀ e ∈ s.scanJobs.entries, s.status? e.1 = some e.2.status := by
    rintro ⟨id, job⟩ he
    rw [status?, job?, Dict.get?_eq_some.mpr he, Option.map_some]
  rw [queuedIds, Dict.keysWhere, Dict.selectKeys, Dict.keys, List.filter_map]
  congr 1
  refine List.filter_congr fun e he => ?_
  simp [hstatus e he]

/-- In a list without repetitions, the place of an element among those that satisfy `q`. -/
theorem findIdx?_filter {ks : List JobId} (q : JobId → Bool) (hq : q id) (hmem : id ∈ ks) :
    (ks.filter q).findIdx? (· = id) = some ((ks.takeWhile (· ≠ id)).countP q) := by
  induction ks with
  | nil => cases hmem
  | cons k ks ih =>
    by_cases hk : k = id
    · subst hk
      simp [hq, List.findIdx?_cons]
    · have hmem : id ∈ ks := (List.mem_cons.mp hmem).resolve_left (Ne.symm hk)
      have ih := ih hmem
      rw [List.takeWhile_cons_of_pos (by simpa using hk), List.countP_cons]
      by_cases hqk : q k = true
      · rw [List.filter_cons_of_pos hqk, List.findIdx?_cons, ih]
        simp [hk, hqk]
      · rw [List.filter_cons_of_neg hqk, ih]
        simp [hqk]

theorem Inv.queueAgrees {s : ScanState} (H : Inv s) : QueueAgrees s where
  queued_iff id := by
    have hcount : s.queue.countP (·.jobId = id) = s.queuedIds.count id := by
      rw [← H.queue_ids, List.count, List.countP_map]
      rfl
    rw [hcount, status?_queued]
    constructor
    · exact fun h => List.count_eq_one_of_mem Dict.nodup_keysWhere h
    · intro h
      exact List.count_pos_iff.mp (by omega)
  entry_queued entry h := by
    obtain ⟨job, hjob, hstatus, _⟩ := H.queued_of_mem h
    rw [status?, hjob, Option.map_some, hstatus]
  running_held id h := by
    obtain ⟨job, hjob, hstatus⟩ := Option.map_eq_some_iff.mp h
    exact H.running hjob hstatus
  running_unique id id' h h' := by
    obtain ⟨job, hjob, hstatus⟩ := Option.map_eq_some_iff.mp h
    obtain ⟨job', hjob', hstatus'⟩ := Option.map_eq_some_iff.mp h'
    obtain ⟨entry, _, hw, rfl⟩ := H.running hjob hstatus
    obtain ⟨entry', _, hw', rfl⟩ := H.running hjob' hstatus'
    rw [hw] at hw'
    cases hw'
    rfl
  position id h := by
    have hkey : id ∈ s.scanJobs.keys :=
      Dict.keysWhere_sublist_keys.subset (status?_queued.mp h)
    have hplace := findIdx?_filter (fun id => s.status? id = some .queued) (by simpa using h) hkey
    rw [← queuedIds_eq_filter, ← H.queue_ids, List.findIdx?_map] at hplace
    cases hq : s.scanQueue with
    | none => simp [queue, hq] at hplace
    | some items =>
      simp only [queue, hq, Option.getD_some, Function.comp_def] at hplace
      simp only [getQueuePosition, hq, Option.bind_some, hplace, Option.map_some, queuedBefore]

/-! ## The agreement along a run -/

/-- How the submissions and the queued jobs of a later state relate to those of an earlier one. -/
structure Later (s t : ScanState) : Prop where
  keys_prefix : s.scanJobs.keys <+: t.scanJobs.keys
  still_queued : ∀ id ∈ s.scanJobs.keys, t.status? id = some .queued → s.status? id = some .queued

theorem Later.refl (s : ScanState) : Later s s := ⟨List.prefix_refl _, fun _ _ h => h⟩

theorem Later.trans {s t u : ScanState} (h₁ : Later s t) (h₂ : Later t u) : Later s u where
  keys_prefix := h₁.keys_prefix.trans h₂.keys_prefix
  still_queued id hid h :=
    h₁.still_queued id hid (h₂.still_queued id (h₁.keys_prefix.subset hid) h)

/-- Rewriting a job without queueing it. -/
theorem Later.modify {s : ScanState} {f : ScanJob → ScanJob} (queue : Option (List QueueEntry))
    (worker : Worker) (effects : List Effect)
    (hf : ∀ job, (f job).status = .queued → job.status = .queued) :
    Later s ⟨s.scanJobs.modify jobId f, queue, worker, effects⟩ where
  keys_prefix := by simp only [Dict.keys_modify, List.prefix_refl]
  still_queued id _ h := by
    obtain ⟨job, hjob, hstatus⟩ := Option.map_eq_some_iff.mp h
    rcases Dict.get?_modify_eq_some.mp hjob with ⟨rfl, job', hjob', rfl⟩ | ⟨_, hjob⟩
    · exact Option.map_eq_some_iff.mpr ⟨job', hjob', hf job' hstatus⟩
    · exact Option.map_eq_some_iff.mpr ⟨job, hjob, hstatus⟩

theorem move_later {s t : ScanState} {l : Label} (h : Move s l t) : Later s t := by
  cases h with
  | same => exact .refl s
  | startup | skip => exact ⟨List.prefix_refl _, fun _ _ h => h⟩
  | submit hq fresh position =>
    refine ⟨?_, fun id hid h => ?_⟩
    · rw [Dict.keys_insertNew]
      exact List.prefix_append _ _
    · rw [status?, job?, Dict.get?_insertNew, if_neg] at h
      · exact h
      · rintro rfl
        exact fresh hid
  | refresh | advance | analyze => exact .modify _ _ _ fun _ h => h
  | cancelQueued | cancelRunning | refuse | start | stop | stopBeforeAnalysis
  | stopAfterAnalysis | failAnalysis | failReport | failSave | failAlert | complete =>
    exact .modify _ _ _ fun _ h => by cases h

theorem step_later {s t : ScanState} {l : Label} (h : step s l = some t) : Later s t :=
  move_later (step_move h)

theorem exec_later {s t : ScanState} {ls : List Label} (h : exec step s ls = some t) :
    Later s t :=
  exec_rel (fun _ => True) Later Later.refl (fun _ _ _ => Later.trans) (fun _ _ _ _ _ => trivial)
    (fun _ _ _ _ => step_later) trivial h

/-- A job that waits in two states of a run has no more queued jobs before it in the later one. -/
theorem Later.queuedBefore_le {s t : ScanState} (h : Later s t) (hs : id ∈ s.scanJobs.keys) :
    t.queuedBefore id ≤ s.queuedBefore id := by
  obtain ⟨new, hnew⟩ := h.keys_prefix
  have hbefore : t.scanJobs.keys.takeWhile (· ≠ id) = s.scanJobs.keys.takeWhile (· ≠ id) := by
    rw [← hnew, List.takeWhile_append, if_neg]
    intro hlen
    have := List.takeWhile_eq_self_iff.mp (List.takeWhile_prefix _ |>.eq_of_length hlen) id hs
    simp at this
  simp only [queuedBefore, hbefore]
  refine List.countP_mono_left fun id' hid' hq => ?_
  rw [decide_eq_true_eq] at hq ⊢
  exact h.still_queued id' (List.takeWhile_prefix _ |>.subset hid') hq

theorem step_keys {s t : ScanState} {l : Label} (h : step s l = some t) (ls : List Label) :
    t.scanJobs.keys ++ submitted t.scanQueue.isSome ls =
      s.scanJobs.keys ++ submitted s.scanQueue.isSome (l :: ls) := by
  cases step_move h with
  | same hsubmit hstart =>
    cases l with
    | startup => exact (hstart rfl).elim
    | scanAsync jobId data user =>
      rw [hsubmit jobId data user rfl]
      rfl
    | _ => cases s.scanQueue.isSome <;> rfl
  | startup hq => rw [hq]; rfl
  | submit hq fresh position =>
    rw [hq, Dict.keys_insertNew, List.append_assoc]
    rfl
  | cancelQueued =>
    simp only [modifyJob_scanJobs, Dict.keys_modify, Option.isSome_map]
    cases s.scanQueue.isSome <;> rfl
  | skip hw hq =>
    rw [hq]
    rfl
  | refuse hw hq | start hw hq =>
    simp only [modifyJob_scanJobs, Dict.keys_modify, hq]
    rfl
  | refresh | cancelRunning | advance | analyze | stop | stopBeforeAnalysis | stopAfterAnalysis
  | failAnalysis | failReport | failSave | failAlert | complete =>
    simp only [modifyJob_scanJobs, Dict.keys_modify, modifyJob_scanQueue]
    cases s.scanQueue.isSome <;> rfl

/-- The job table lists the accepted submissions in order. -/
theorem run_keys {s : ScanState} {ls : List Label} (h : run ls = some s) :
    s.scanJobs.keys = submitted false ls := by
  have hexec : ∀ {ls : List Label} {s t : ScanState}, exec step s ls = some t →
      t.scanJobs.keys = s.scanJobs.keys ++ submitted s.scanQueue.isSome ls := by
    intro ls
    induction ls with
    | nil => rintro s t ⟨⟩; simp [submitted]
    | cons l ls ih =>
      intro s t h
      obtain ⟨u, hu, ht⟩ := exec_cons_some.mp h
      rw [ih ht, step_keys hu]
  exact hexec h

/-- The started jobs, followed by those that wait, are in order of submission. -/
def StartOrder (s : ScanState) : Prop :=
  (s.startedIds ++ s.queue.map (·.jobId)).Sublist s.scanJobs.keys

theorem startedIds_append (jobs : Dict JobId ScanJob) (queue : Option (List QueueEntry))
    (worker : Worker) (es es' : List Effect) (hes : ∀ id, .started id ∉ es') :
    startedIds ⟨jobs, queue, worker, es ++ es'⟩ = startedIds ⟨jobs, queue, worker, es⟩ := by
  simp only [startedIds, List.filterMap_append]
  rw [List.append_right_eq_self, List.filterMap_eq_nil_iff]
  rintro (id | _ | _ | _) he
  · exact (hes id he).elim
  all_goals rfl

theorem SaveEffects.not_started {es : List Effect} (h : SaveEffects jobId result es) :
    ∀ id, .started id ∉ es := by
  cases h <;> simp

theorem move_startOrder {s t : ScanState} {l : Label} (h : Move s l t) (hs : StartOrder s) :
    StartOrder t := by
  unfold StartOrder at hs ⊢
  cases h with
  | same => exact hs
  | startup hq =>
    rw [queue, hq] at hs
    exact hs
  | submit hq fresh position =>
    simp only [queue, hq, Option.getD_some] at hs
    simp only [queue, Option.getD_some, Dict.keys_insertNew, List.map_append, ← List.append_assoc]
    exact hs.append (List.Sublist.refl _)
  | cancelQueued =>
    simp only [modifyJob_scanJobs, Dict.keys_modify]
    refine List.Sublist.trans (List.Sublist.append_left ?_ _) hs
    simp only [queue]
    cases s.scanQueue with
    | none => exact List.Sublist.refl _
    | some items => exact List.filter_sublist.map _
  | skip hw hq | refuse hw hq =>
    simp only [queue, hq, Option.getD_some, List.map_cons] at hs
    simp only [modifyJob_scanJobs, Dict.keys_modify]
    exact List.Sublist.trans (List.Sublist.append_left (List.sublist_cons_self _ _) _) hs
  | start hw hq =>
    simp only [queue, hq, Option.getD_some, List.map_cons] at hs
    simp only [modifyJob_scanJobs, Dict.keys_modify]
    simpa [startedIds, queue] using hs
  | refresh | cancelRunning | advance | stop | stopBeforeAnalysis | stopAfterAnalysis
  | failAnalysis | failReport | failSave =>
    simp only [modifyJob_scanJobs, Dict.keys_modify]
    exact hs
  | analyze =>
    simp only [modifyJob_scanJobs, Dict.keys_modify]
    rw [startedIds_append _ _ _ _ _ (by simp)]
    exact hs
  | failAlert _ _ _ _ hes | complete _ _ _ _ hes =>
    simp only [modifyJob_scanJobs, Dict.keys_modify]
    rw [startedIds_append _ _ _ _ _ hes.not_started]
    exact hs

theorem init_startOrder : StartOrder init := List.Sublist.refl []

theorem run_startOrder {s : ScanState} {ls : List Label} (h : run ls = some s) : StartOrder s :=
  exec_invariant StartOrder (fun _ _ _ hs h => move_startOrder (step_move h) hs)
    init_startOrder h

/-- In every state of every run the queue and the job table agree, a waiting job never moves
back, and the jobs started so far are, in the order in which they started, among the accepted
submissions in the order in which those were made. -/
theorem queue_and_table_agree {ls₁ ls₂ : List Label} {s₁ s₂ : ScanState}
    (h₁ : run ls₁ = some s₁) (h₂ : exec step s₁ ls₂ = some s₂) :
    QueueAgrees s₁ ∧
      (∀ id p₁ p₂, s₁.status? id = some .queued → s₂.status? id = some .queued →
        getQueuePosition s₁ id = some p₁ → getQueuePosition s₂ id = some p₂ → p₂ ≤ p₁) ∧
      s₁.scanJobs.keys = submitted false ls₁ ∧
      s₁.startedIds.Sublist (submitted false ls₁) := by
  have H₁ := run_inv h₁
  have H₂ := run_inv (exec_append_some.mpr ⟨s₁, h₁, h₂⟩)
  refine ⟨H₁.queueAgrees, ?_, run_keys h₁, ?_⟩
  · intro id p₁ p₂ hq₁ hq₂ hp₁ hp₂
    rw [H₁.queueAgrees.position id hq₁, Option.some.injEq] at hp₁
    rw [H₂.queueAgrees.position id hq₂, Option.some.injEq] at hp₂
    have hkey : id ∈ s₁.scanJobs.keys :=
      Dict.keysWhere_sublist_keys.subset (status?_queued.mp hq₁)
    have := (exec_later h₂).queuedBefore_le hkey
    omega
  · rw [← run_keys h₁]
    exact (List.sublist_append_left _ _).trans (run_startOrder h₁)

/-- Two submissions; the worker then takes the first one. -/
def twoSubmissions : List Label :=
  [.startup, .scanAsync 1 { target := "a.example" } 7, .scanAsync 2 { target := "b.example" } 8]

theorem queue_and_table_agree_two : ∃ s₁ s₂, run twoSubmissions = some s₁ ∧
    exec step s₁ [.take] = some s₂ ∧ getQueuePosition s₁ 2 = some 2 ∧
    getQueuePosition s₂ 2 = some 1 ∧ QueueAgrees s₁ ∧ s₁.scanJobs.keys = [1, 2] := by
  obtain ⟨s₁, h₁, hs₁⟩ := Option.bind_eq_some_iff.mp
    (show (run twoSubmissions).bind (getQueuePosition · 2) = some 2 by decide)
  obtain ⟨s₂, h₂, hs₂⟩ := Option.bind_eq_some_iff.mp
    (show (run (twoSubmissions ++ [.take])).bind (getQueuePosition · 2) = some 1 by decide)
  obtain ⟨s₁', h₁', h₂⟩ := exec_append_some.mp h₂
  cases h₁.symm.trans h₁'
  have h := queue_and_table_agree h₁ h₂
  exact ⟨s₁, s₂, h₁, h₂, hs₁, hs₂, h.1, h.2.2.1⟩

end ThreatScanner.Scan
