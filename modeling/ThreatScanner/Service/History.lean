import ThreatScanner.Scan.Filing
import ThreatScanner.Store.Accounts
import ThreatScanner.Store.ReadBack

/-!
# Scan jobs and the history

`run_scan_job` saves the report of a job under the user of the job, while the endpoints read and
delete what was saved. `Filed` ties the two together: which rows of `scans` the jobs have made, and
what a completed job says about its own.
-/

namespace ThreatScanner.Service.History

open Relational Store Transition Scan ScanState

variable {p : Platform} {raised : StoreError → PyError} {parent : TableName} {db db' db₀ : ScanDb}

/-! ## The job system and the store together -/

structure State where
  scan : ScanState
  session : Session

/-- A step of the job system, the end of an analysis, or a call of the store by another endpoint. -/
inductive Label where
  | scan (l : Scan.Label)
  | finish (outcome : AnalyzeOutcome) (now : Value) (alerted : Except PyError Unit)
  | call (call : Call)

/-- The user who makes the request. -/
def requester : Scan.Label → Option UserId
  | .scanAsync _ _ user | .cancelScan _ user | .scanStatus _ user => some user
  | .startup | .take | .wake | .finish .. => none

/-- `get_current_user` lets nobody in who has no account. -/
def known (db : ScanDb) (user : UserId) : Bool := (rows db .users).any fun row => row.id = user

/-- `save_scan_result` up to its call of `save_scan`. -/
def scanRecord (p : Platform) (db : ScanDb) (target : String) (result : Json) (userId : Int) :
    Except StoreError ScanRecord := do
  let user ← getUserById db userId
  let risk ← python (result.get "risk")
  let score ← python (result.get "score")
  let alerts ← python (result.get "alerts" (.arr []))
  .ok {
    userId := user.map (·.id)
    target := target
    risk := risk
    score := score
    alerts := p.dumps alerts
    report := some (p.dumps result) }

theorem saveScanResult_eq {now : Value} {target : String} {result : Json} {userId : Int} :
    saveScanResult p now db target result userId =
      (scanRecord p db target result userId).bind fun scan => saveScan p now db scan := by
  simp only [saveScanResult, scanRecord, bind, Except.bind]
  cases getUserById db userId with
  | error e => rfl
  | ok user =>
    cases python (result.get "risk") with
    | error e => rfl
    | ok risk =>
      cases python (result.get "score") with
      | error e => rfl
      | ok score => cases python (result.get "alerts" (.arr [])) <;> rfl

/-- What `save_scan_result` gives for the report of a job, and the session after it. Without a
report it is not called, and what it gives is not read. -/
def save (p : Platform) (raised : StoreError → PyError) (now : Value) (session : Session)
    (entry : QueueEntry) : Option Json → Except PyError Nat × Session
  | none => (.ok 0, session)
  | some report =>
    match scanRecord p session.db entry.target report entry.userId with
    | .error e => (.error (raised e), session)
    | .ok scan =>
      match saveScan p now session.db scan with
      | .error e => (.error (raised e), session)
      | .ok (scanId, db) =>
        (.ok scanId.toNat, ⟨db, session.trace ++ [(.saveScan scan, .saved scanId)]⟩)

/-- Nothing is saved and the session stays as it is, or a scan is saved for the report. -/
theorem save_cases {now : Value} {session : Session} {entry : QueueEntry} (report : Option Json) :
    ((save p raised now session entry report).2 = session ∧
      ∀ r, report = some r → ∃ e, (save p raised now session entry report).1 = .error e) ∨
    ∃ r scan scanId db', report = some r ∧
      scanRecord p session.db entry.target r entry.userId = .ok scan ∧
      saveScan p now session.db scan = .ok (scanId, db') ∧
      save p raised now session entry report =
        (.ok scanId.toNat, ⟨db', session.trace ++ [(.saveScan scan, .saved scanId)]⟩) := by
  cases report with
  | none => exact .inl ⟨rfl, nofun⟩
  | some report =>
    simp only [save]
    cases hscan : scanRecord p session.db entry.target report entry.userId with
    | error e => exact .inl ⟨rfl, fun _ _ => ⟨_, rfl⟩⟩
    | ok scan =>
      cases hsave : saveScan p now session.db scan with
      | error e => exact .inl ⟨by simp only [hsave], fun _ _ => ⟨raised e, by simp only [hsave]⟩⟩
      | ok r => exact .inr ⟨report, scan, r.1, r.2, rfl, hscan, hsave, by simp only [hsave]⟩

/-- One atomic step. The end of an analysis is a step of its own, as it writes to the store. -/
def step (p : Platform) (raised : StoreError → PyError) (s : State) : Label → Option State
  | .scan (.finish ..) => none
  | .scan l =>
    if (requester l).all (known s.session.db) then
      (Scan.step s.scan l).map fun scan => { s with scan := scan }
    else none
  | .finish outcome now alerted =>
    match s.scan.worker with
    | .busy entry .analyze =>
      let (saved, session) := save p raised now s.session entry (reportToSave s.scan entry outcome)
      some ⟨finishRun s.scan entry outcome saved alerted, session⟩
    | _ => none
  | .call call => (s.session.step p call).map fun session => { s with session := session }

/-! ## Rows and jobs -/

/-- The row of the scan of a job. -/
structure JobRow (job : ScanJob) (scanId : Nat) (row : StoreRow) : Prop where
  id : row.id = scanId
  owner : row.cells .userId = .integer job.userId
  target : row.cells .target = .text job.target
  risk : ∀ result risk, job.status = .completed → job.result = some result →
    result.get "risk" = .ok (.str risk) → row.cells .risk = .text risk

/-- The job has ended, and the row is that of its scan. -/
def RowOf (s : ScanState) (id : JobId) (scanId : Nat) (row : StoreRow) : Prop :=
  ∃ job, s.job? id = some job ∧ Settled job ∧ JobRow job scanId row

theorem RowOf.move {s t : ScanState} {l : Scan.Label} {id : JobId} {scanId : Nat} {row : StoreRow}
    (h : RowOf s id scanId row) (H : Inv s) (hmove : Move s l t) : RowOf t id scanId row := by
  obtain ⟨job, hjob, hsettled, hrow⟩ := h
  obtain ⟨job', hjob', hchange⟩ := move_change H hmove hjob
  obtain ⟨hstatus, hresult⟩ := hsettled.change H hjob hchange
  refine ⟨job', hjob', ?_, hrow.id, ?_, ?_, ?_⟩
  · rwa [Settled, hstatus]
  · rw [hchange.userId_eq]
    exact hrow.owner
  · rw [hchange.target_eq]
    exact hrow.target
  · rw [hstatus, hresult]
    exact hrow.risk

/-- The row is in the store, or its owner deleted it. -/
def Present (session : Session) (row : StoreRow) : Prop :=
  row ∈ rows session.db .scans ∨
    ∃ userId, row.cells .userId = .integer userId ∧ row.id ∈ deletedBy userId session.trace

theorem Present.performs {session : Session} {row : StoreRow} {now : Value}
    {operation : Operation} {reply : Reply} (h : Present session row)
    (hperforms : Performs p now session.db operation reply db')
    (hscans : schema session.db .scans = some scansColumns) :
    Present ⟨db', session.trace ++ [(operation, reply)]⟩ row := by
  rcases h with hrow | ⟨userId, howner, hdeleted⟩
  · refine (hperforms.kept hscans hrow).imp_right ?_
    rintro ⟨userId, howner, rfl, rfl⟩
    refine ⟨userId, howner, ?_⟩
    rw [deletedBy_concat]
    exact List.mem_append_right _ (by simp [deletedIdBy])
  · refine .inr ⟨userId, howner, ?_⟩
    rw [deletedBy_concat]
    exact List.mem_append_left _ hdeleted

/-! ## The invariant -/

/-- The scans of the jobs are in the store, one for each job that was filed, under its user and its
target; a completed job has the id of its scan in its result, and every other scan was there at
the start or was saved by a call. -/
structure Filed (p : Platform) (parent : TableName) (db₀ : ScanDb) (ls : List Label) (s : State) :
    Prop where
  inv : Inv s.scan
  matched : Matched s.scan
  hasSchema : HasSchema parent s.session.db
  users : ∀ id job, s.scan.job? id = some job → known s.session.db job.userId = true
  present : ∀ id n, (id, n) ∈ filed s.scan → ∃ row, RowOf s.scan id n row ∧ Present s.session row
  jobs : ((filed s.scan).map Prod.fst).Nodup
  scans : ((filed s.scan).map Prod.snd).Nodup
  bounded : ∃ table, s.session.db .scans = some table ∧ 0 ≤ table.seq ∧
    ∀ e ∈ filed s.scan, (e.2 : Int) ≤ table.seq
  completed : ∀ id r, s.scan.completed? id = some r → ∃ n result, (id, n) ∈ filed s.scan ∧
    r = some result ∧ result.get "scan_id" = .ok (.int n)
  source : ∀ row ∈ rows s.session.db .scans, row ∈ rows db₀ .scans ∨
    (∃ id n, (id, n) ∈ filed s.scan ∧ RowOf s.scan id n row) ∨
    ∃ now scan, .call ⟨now, .saveScan scan⟩ ∈ ls ∧ StoresScan p scan row

theorem filed_start (H : HasSchema parent db₀)
    (hids : ∃ table, db₀ .scans = some table ∧ 0 ≤ table.seq) :
    Filed p parent db₀ [] ⟨.init, ⟨db₀, []⟩⟩ where
  inv := init_inv
  matched := by
    rintro entry (hentry | ⟨await, hw⟩)
    · cases hentry
    · cases hw
  hasSchema := H
  users _ _ h := nomatch h
  present _ _ h := nomatch h
  jobs := List.nodup_nil
  scans := List.nodup_nil
  bounded := by
    obtain ⟨table, htable, hseq⟩ := hids
    exact ⟨table, htable, hseq, nofun⟩
  completed _ _ h := nomatch h
  source row hrow := .inl hrow

section Step
variable {ls : List Label} {s : State} {l : Label}

/-- A step of the job system that files nothing and completes no job. -/
theorem Filed.quiet {t : ScanState} {l' : Scan.Label} (F : Filed p parent db₀ ls s)
    (h : Scan.step s.scan l' = some t) (hfiled : filed t = filed s.scan)
    (hcompleted : ∀ id, t.completed? id = s.scan.completed? id)
    (hknown : ∀ user, requester l' = some user → known s.session.db user = true) :
    Filed p parent db₀ (ls ++ [l]) ⟨t, s.session⟩ where
  inv := step_inv F.inv h
  matched := F.matched.move F.inv (step_move h)
  hasSchema := F.hasSchema
  users id job hjob := by
    rcases move_change_back F.inv (step_move h) hjob with
      ⟨job₀, hjob₀, hchange⟩ | ⟨data, user, position, rfl, rfl⟩
    · rw [hchange.userId_eq]
      exact F.users id job₀ hjob₀
    · exact hknown user rfl
  present id n hmem := by
    rw [hfiled] at hmem
    obtain ⟨row, hrow, hpresent⟩ := F.present id n hmem
    exact ⟨row, hrow.move F.inv (step_move h), hpresent⟩
  jobs := by rw [hfiled]; exact F.jobs
  scans := by rw [hfiled]; exact F.scans
  bounded := by rw [hfiled]; exact F.bounded
  completed id r hr := by
    rw [hcompleted] at hr
    rw [hfiled]
    exact F.completed id r hr
  source row hrow := by
    rw [hfiled]
    rcases F.source row hrow with hrow | ⟨id, n, hmem, hof⟩ | ⟨now, scan, hcall, hsaved⟩
    · exact .inl hrow
    · exact .inr (.inl ⟨id, n, hmem, hof.move F.inv (step_move h)⟩)
    · exact .inr (.inr ⟨now, scan, List.mem_append_left _ hcall, hsaved⟩)

/-- A call of the store. -/
theorem Filed.call {call : Call} {session : Session} (F : Filed p parent db₀ ls s)
    (h : s.session.step p call = some session) :
    Filed p parent db₀ (ls ++ [.call call]) ⟨s.scan, session⟩ := by
  have hschema := schema_step F.hasSchema h
  have hgrow := users_grow F.hasSchema (exec_singleton.trans h)
  rw [step_eq_some h] at hschema hgrow ⊢
  have hperforms : Performs p call.now s.session.db call.operation _ _ :=
    perform_performs F.hasSchema call.operation
  refine ⟨F.inv, F.matched, hschema, fun id job hjob => ?_, fun id n hmem => ?_, F.jobs, F.scans,
    ?_, F.completed, fun row hrow => ?_⟩
  · obtain ⟨row, hrow, hid⟩ := List.any_eq_true.mp (F.users id job hjob)
    exact List.any_eq_true.mpr ⟨row, hgrow.subset hrow, hid⟩
  · obtain ⟨row, hrow, hpresent⟩ := F.present id n hmem
    exact ⟨row, hrow, hpresent.performs hperforms F.hasSchema.scans⟩
  · obtain ⟨table, htable, hpos, hbounded⟩ := F.bounded
    obtain ⟨table', htable', hseq⟩ := hperforms.counted htable
    exact ⟨table', htable', Int.le_trans hpos hseq,
      fun e he => Int.le_trans (hbounded e he) hseq⟩
  · rcases hperforms.added F.hasSchema.scans hrow with hrow | ⟨scan, hscan, hsaved⟩
    · rcases F.source row hrow with hrow | hof | ⟨now, scan, hcall, hsaved⟩
      · exact .inl hrow
      · exact .inr (.inl hof)
      · exact .inr (.inr ⟨now, scan, List.mem_append_left _ hcall, hsaved⟩)
    · refine .inr (.inr ⟨call.now, scan, List.mem_append_right _ ?_, hsaved⟩)
      rw [← hscan]
      exact List.mem_singleton_self _

/-- What `save_scan_result` makes of the report of a job whose user has an account. -/
theorem scanRecord_ok {entry : QueueEntry} {report : Json} {scan : ScanRecord}
    (hknown : known db entry.userId = true)
    (h : scanRecord p db entry.target report entry.userId = .ok scan) :
    scan.userId = some (entry.userId : Int) ∧ scan.target = entry.target ∧
      ∀ risk, report.get "risk" = .ok (.str risk) → scan.risk = .str risk := by
  simp only [scanRecord, bind_eq_ok, python_eq_ok] at h
  obtain ⟨user, huser, risk, hrisk, score, -, alerts, -, hscan⟩ := h
  cases hscan
  obtain ⟨row, hrow, hid⟩ := List.any_eq_true.mp hknown
  rw [decide_eq_true_eq] at hid
  refine ⟨getUserById_found huser ⟨row, hrow, hid⟩, rfl, fun text htext => ?_⟩
  cases hrisk.symm.trans htext
  rfl

/-- The row of a job that has just been filed. -/
theorem jobRow_of_filedAs {entry : QueueEntry} {report : Json} {scan : ScanRecord} {n : Nat}
    {row : StoreRow} {job : ScanJob} (hknown : known db entry.userId = true)
    (hscan : scanRecord p db entry.target report entry.userId = .ok scan)
    (hid : row.id = n) (hrow : StoresScan p scan row) (huser : job.userId = entry.userId)
    (htarget : job.target = entry.target) (hjob : FiledAs report n job) : JobRow job n row := by
  obtain ⟨howner, hname, hrisk⟩ := scanRecord_ok hknown hscan
  refine ⟨hid, ?_, ?_, fun result risk hstatus hresult hget => hrow.risk_text (hrisk risk ?_)⟩
  · rw [hrow.owner, howner, huser]
  · rw [hrow.target, hname, htarget]
  · rcases hjob with hfailed | ⟨-, result', hresult', -, hkeys⟩
    · rw [hfailed] at hstatus
      cases hstatus
    · cases hresult.symm.trans hresult'
      rw [← hkeys "risk" (by decide)]
      exact hget

/-- The job the worker holds has not been filed. -/
theorem Filed.not_filed {entry : QueueEntry} {await : Await} (F : Filed p parent db₀ ls s)
    (hw : s.scan.worker = .busy entry await) : entry.jobId ∉ (filed s.scan).map Prod.fst := by
  intro hmem
  obtain ⟨⟨id, n⟩, hmem, rfl⟩ := List.mem_map.mp hmem
  obtain ⟨_, ⟨job, hjob, hsettled, -⟩, -⟩ := F.present _ n hmem
  exact hsettled.not_held F.inv hjob hw rfl

section Files
variable {entry : QueueEntry} {report : Json} {scan : ScanRecord} {n : Nat} {row : StoreRow}
  {es : List Effect} {f : ScanJob → ScanJob} {t : ScanState}

theorem filed_files (hes : es.filterMap filed? = [(entry.jobId, n)])
    (ht : t = { s.scan.modifyJob entry.jobId f with
      worker := .waiting, effects := s.scan.effects ++ es }) :
    filed t = filed s.scan ++ [(entry.jobId, n)] := by
  rw [ht, filed, List.filterMap_append, hes, filed]

/-- The row that was saved is that of the job the worker held. -/
theorem Filed.rowOf_files {l' : Scan.Label} (F : Filed p parent db₀ ls s)
    (hw : s.scan.worker = .busy entry .analyze)
    (hscan : scanRecord p s.session.db entry.target report entry.userId = .ok scan)
    (hid : row.id = n) (hrow : StoresScan p scan row) (hjob : ∀ job, FiledAs report n (f job))
    (ht : t = { s.scan.modifyJob entry.jobId f with
      worker := .waiting, effects := s.scan.effects ++ es })
    (hmove : Move s.scan l' t) : RowOf t entry.jobId n row := by
  obtain ⟨job, hheld, -⟩ := F.inv.held hw
  obtain ⟨job', hjob', hchange⟩ := move_change F.inv hmove hheld
  have hself : t.job? entry.jobId = some (f job) := by
    rw [ht]
    exact Dict.get?_modify_eq_some.mpr (.inl ⟨rfl, job, hheld, rfl⟩)
  cases hself.symm.trans hjob'
  obtain ⟨huser, htarget⟩ := F.matched entry (.inr ⟨_, hw⟩) job hheld
  have hknown := F.users entry.jobId job hheld
  rw [huser] at hknown
  refine ⟨f job, hself, (hjob job).symm.imp And.left id, ?_⟩
  exact jobRow_of_filedAs hknown hscan hid hrow (hchange.userId_eq.trans huser)
    (hchange.target_eq.trans htarget) (hjob job)

/-- A job that is completed then was so before, or is the one that is filed. -/
theorem Filed.completed_files (F : Filed p parent db₀ ls s)
    (hw : s.scan.worker = .busy entry .analyze) (hes : es.filterMap filed? = [(entry.jobId, n)])
    (hjob : ∀ job, FiledAs report n (f job))
    (ht : t = { s.scan.modifyJob entry.jobId f with
      worker := .waiting, effects := s.scan.effects ++ es })
    {id : JobId} {r : Option Json} (hr : t.completed? id = some r) :
    ∃ n result, (id, n) ∈ filed t ∧ r = some result ∧ result.get "scan_id" = .ok (.int n) := by
  rw [filed_files hes ht]
  by_cases hid : id = entry.jobId
  · subst hid
    obtain ⟨job, hheld, -⟩ := F.inv.held hw
    have hself : t.job? entry.jobId = some (f job) := by
      rw [ht]
      exact Dict.get?_modify_eq_some.mpr (.inl ⟨rfl, job, hheld, rfl⟩)
    simp only [completed?, hself, Option.bind_some, Option.ite_none_right_eq_some,
      Option.some.injEq] at hr
    rcases hjob job with hfailed | ⟨-, result, hresult, hscanId, -⟩
    · rw [hfailed] at hr
      cases hr.1
    · exact ⟨n, result, List.mem_append_right _ List.mem_cons_self, hr.2.symm.trans hresult,
        hscanId⟩
  · have hother : t.completed? id = s.scan.completed? id := by
      rw [ht, completed?, completed?, job?, job?, modifyJob_scanJobs, Dict.get?_modify_of_ne hid]
    rw [hother] at hr
    obtain ⟨m, result, hmem, hresult⟩ := F.completed id r hr
    exact ⟨m, result, List.mem_append_left _ hmem, hresult⟩

end Files

/-- The end of an analysis whose report is saved. -/
theorem Filed.files {entry : QueueEntry} {report : Json} {scan : ScanRecord} {now : Value}
    {scanId : Int} {es : List Effect} {f : ScanJob → ScanJob} {t : ScanState}
    {outcome : AnalyzeOutcome} {saved : Except PyError Nat} {alerted : Except PyError Unit}
    (F : Filed p parent db₀ ls s) (hw : s.scan.worker = .busy entry .analyze)
    (hscan : scanRecord p s.session.db entry.target report entry.userId = .ok scan)
    (hsave : saveScan p now s.session.db scan = .ok (scanId, db'))
    (hes : es.filterMap filed? = [(entry.jobId, scanId.toNat)])
    (hjob : ∀ job, FiledAs report scanId.toNat (f job))
    (ht : t = { s.scan.modifyJob entry.jobId f with
      worker := .waiting, effects := s.scan.effects ++ es })
    (h : Scan.step s.scan (.finish outcome saved alerted) = some t) :
    Filed p parent db₀ (ls ++ [l])
      ⟨t, ⟨db', s.session.trace ++ [(.saveScan scan, .saved scanId)]⟩⟩ := by
  have hmove := step_move h
  have hcall : s.session.step p ⟨now, .saveScan scan⟩ =
      some ⟨db', s.session.trace ++ [(.saveScan scan, .saved scanId)]⟩ := by
    simp only [Session.step, perform, hsave]
  have F' := F.call hcall
  have hsaved := saveScan_ok hsave
  obtain ⟨row, hrows, hid, hrow⟩ := hsaved.storesScan F.hasSchema.scans
  obtain ⟨table, table', htable, htable', hnext, hseq⟩ := hsaved.next
  obtain ⟨table₀, htable₀, hpos, hbounded⟩ := F.bounded
  cases htable.symm.trans htable₀
  have hnat : (scanId.toNat : Int) = scanId := by omega
  have hof : RowOf t entry.jobId scanId.toNat row :=
    F.rowOf_files hw hscan (hid.trans hnat.symm) hrow hjob ht hmove
  have hfiled : filed t = filed s.scan ++ [(entry.jobId, scanId.toNat)] := filed_files hes ht
  refine ⟨step_inv F.inv h, F.matched.move F.inv hmove, F'.hasSchema, fun id job hjob => ?_,
    fun id n hmem => ?_, ?_, ?_, ⟨table', htable', by omega, fun e he => ?_⟩,
    fun id r hr => F.completed_files hw hes hjob ht hr, fun row' hrow' => ?_⟩
  · rcases move_change_back F.inv hmove hjob with ⟨job₀, hjob₀, hchange⟩ | ⟨_, _, _, hl, -⟩
    · rw [hchange.userId_eq]
      exact F'.users id job₀ hjob₀
    · cases hl
  · rw [hfiled, List.mem_append, List.mem_singleton] at hmem
    rcases hmem with hmem | hmem
    · obtain ⟨row, hrow, hpresent⟩ := F'.present id n hmem
      exact ⟨row, hrow.move F.inv hmove, hpresent⟩
    · cases hmem
      exact ⟨row, hof, .inl (by rw [hrows]; exact List.mem_append_right _ List.mem_cons_self)⟩
  · rw [hfiled, List.map_append, List.map_singleton]
    exact List.Nodup.append F.jobs (List.nodup_singleton _)
      (List.disjoint_singleton.mpr (F.not_filed hw))
  · rw [hfiled, List.map_append, List.map_singleton]
    refine List.Nodup.append F.scans (List.nodup_singleton _) (List.disjoint_singleton.mpr ?_)
    intro hmem
    obtain ⟨e, hmem, hn⟩ := List.mem_map.mp hmem
    have := hbounded e hmem
    omega
  · rw [hfiled, List.mem_append, List.mem_singleton] at he
    rcases he with he | rfl
    · have := hbounded e he
      omega
    · show (scanId.toNat : Int) ≤ _
      omega
  · rw [hfiled]
    rw [hrows, List.mem_append, List.mem_singleton] at hrow'
    rcases hrow' with hrow' | rfl
    · rcases F.source row' hrow' with hrow' | ⟨id, n, hmem, hof⟩ | ⟨now, scan, hcall, hsaved⟩
      · exact .inl hrow'
      · exact .inr (.inl ⟨id, n, List.mem_append_left _ hmem, hof.move F.inv hmove⟩)
      · exact .inr (.inr ⟨now, scan, List.mem_append_left _ hcall, hsaved⟩)
    · exact .inr (.inl ⟨entry.jobId, scanId.toNat,
        List.mem_append_right _ List.mem_cons_self, hof⟩)

theorem step_scan {l' : Scan.Label} {t : State} (h : step p raised s (.scan l') = some t) :
    (∀ outcome saved alerted, l' ≠ .finish outcome saved alerted) ∧
      (∀ user, requester l' = some user → known s.session.db user = true) ∧
      ∃ scan, Scan.step s.scan l' = some scan ∧ t = { s with scan := scan } := by
  have hcases : ∀ l'' : Scan.Label, (if (requester l'').all (known s.session.db) then
      (Scan.step s.scan l'').map fun scan => { s with scan := scan } else none) = some t →
      (∀ user, requester l'' = some user → known s.session.db user = true) ∧
      ∃ scan, Scan.step s.scan l'' = some scan ∧ t = { s with scan := scan } := by
    intro l'' h
    split at h
    · rename_i hall
      obtain ⟨scan, hscan, ht⟩ := Option.map_eq_some_iff.mp h
      refine ⟨fun user huser => ?_, scan, hscan, ht.symm⟩
      rw [huser] at hall
      exact hall
    · cases h
  cases l' with
  | finish => cases h
  | _ => exact ⟨nofun, hcases _ h⟩

theorem filed_step {t : State} (F : Filed p parent db₀ ls s) (h : step p raised s l = some t) :
    Filed p parent db₀ (ls ++ [l]) t := by
  cases l with
  | scan l' =>
    obtain ⟨hl, hknown, scan, hscan, rfl⟩ := step_scan h
    obtain ⟨hfiled, hcompleted⟩ := move_quiet F.inv (step_move hscan) hl
    exact F.quiet hscan hfiled hcompleted hknown
  | call call =>
    simp only [step, Option.map_eq_some_iff] at h
    obtain ⟨session, hcall, rfl⟩ := h
    exact F.call hcall
  | finish outcome now alerted =>
    cases hw : s.scan.worker with
    | notStarted | waiting => simp only [step, hw, reduceCtorEq] at h
    | busy entry await =>
      cases await with
      | analyze =>
        simp only [step, hw, Option.some.injEq] at h
        subst h
        have hstep : ∀ saved, Scan.step s.scan (.finish outcome saved alerted) =
            some (finishRun s.scan entry outcome saved alerted) := by
          intro saved
          simp only [Scan.step, hw]
        -- without a scan saved the end of the analysis files nothing
        have hdrops : ∀ saved, (∀ report, reportToSave s.scan entry outcome = some report →
            ∃ e, saved = .error e) → Filed p parent db₀ (ls ++ [.finish outcome now alerted])
              ⟨finishRun s.scan entry outcome saved alerted, s.session⟩ := by
          intro saved hnone
          have hends := finishRun_ends s.scan entry outcome saved alerted
          generalize hreport : reportToSave s.scan entry outcome = r at hends
          have hs := hstep saved
          generalize finishRun s.scan entry outcome saved alerted = t at hends hs
          cases hends with
          | drops f _ hstatus =>
            exact F.quiet hs rfl (completed?_modify _ _ _
              (fun _ hjob => F.inv.held_not_completed hw hjob) fun job _ => hstatus job)
              fun _ h => by cases h
          | files f hsaved =>
            obtain ⟨e, he⟩ := hnone _ hreport
            cases hsaved.symm.trans he
        rcases save_cases (reportToSave s.scan entry outcome) with
          ⟨hsession, hnone⟩ | ⟨report, scan, scanId, db', hreport, hscan, hsave, heq⟩
        · rw [hsession]
          exact hdrops _ hnone
        · rw [heq]
          have hends := finishRun_ends s.scan entry outcome (.ok scanId.toNat) alerted
          rw [hreport] at hends
          have hs := hstep (.ok scanId.toNat)
          generalize finishRun s.scan entry outcome (.ok scanId.toNat) alerted = t at hends hs
          cases hends with
          | drops _ hnone =>
            obtain ⟨e, he⟩ := hnone _ rfl
            cases he
          | files f hsaved hes hjob =>
            cases hsaved
            exact F.files hw hscan hsave hes hjob rfl hs
      | _ => simp only [step, hw, reduceCtorEq] at h

end Step

theorem filed_run {ls : List Label} {s : State} (H : HasSchema parent db₀)
    (hids : ∃ table, db₀ .scans = some table ∧ 0 ≤ table.seq)
    (hrun : exec (step p raised) ⟨.init, ⟨db₀, []⟩⟩ ls = some s) : Filed p parent db₀ ls s :=
  exec_trace (Filed p parent db₀) (fun _ _ _ _ => filed_step) (filed_start H hids) hrun

/-! ## Results and history -/

/-- The history of the user shows the scan of a job, with its target and its risk. -/
def Listed (db : ScanDb) (job : ScanJob) (result : Json) (scanId : Nat) : Prop :=
  ∃ data entry, history db job.userId = .ok data ∧ entry ∈ data ∧
    entry.get "id" = .ok (.int scanId) ∧ entry.get "target" = .ok (.str job.target) ∧
    ∀ risk, result.get "risk" = .ok (.str risk) → entry.get "risk" = .ok (.str risk)

theorem JobRow.listed {job : ScanJob} {scanId : Nat} {row : StoreRow} {result : Json}
    (h : JobRow job scanId row) (H : HasSchema parent db) (huser : known db job.userId = true)
    (hmem : row ∈ rows db .scans) (hstatus : job.status = .completed)
    (hresult : job.result = some result) : Listed db job result scanId := by
  obtain ⟨user, huser, hid⟩ := List.any_eq_true.mp huser
  rw [decide_eq_true_eq] at hid
  have hfits := rows_fits huser
  rw [hid] at hfits
  refine ⟨_, historyEntry row, history_eq H hfits,
    List.mem_map_of_mem (List.mem_reverse.mpr (mem_ownRows.mpr ⟨hmem, h.owner⟩)), ?_, ?_,
    fun risk hrisk => ?_⟩
  · show Except.ok (Json.int row.id) = _
    rw [h.id]
  · show Except.ok (fromValue (row.cells .target)) = _
    rw [h.target]
    rfl
  · show Except.ok (fromValue (row.cells .risk)) = _
    rw [h.risk result risk hstatus hresult hrisk]
    rfl

/-- Jobs and history agree, whatever is requested in between. A completed job has the id of a scan
of its own in its result; the history of its user shows that scan with the target and the risk of
the job until the user deletes it. Every scan in the store was there at the start, was saved by
another endpoint, or is that of a job that has ended, under its user and its target. -/
theorem completed_in_history {ls : List Label} {s : State} (H : HasSchema parent db₀)
    (hids : ∃ table, db₀ .scans = some table ∧ 0 ≤ table.seq)
    (hrun : exec (step p raised) ⟨.init, ⟨db₀, []⟩⟩ ls = some s) :
    (∀ id job, s.scan.job? id = some job → job.status = .completed →
      ∃ (result : Json) (n : Nat), job.result = some result ∧
        result.get "scan_id" = .ok (.int n) ∧
        ((n : Int) ∈ deletedBy job.userId s.session.trace ∨
          Listed s.session.db job result n) ∧
        ∀ id' job' result', s.scan.job? id' = some job' → job'.status = .completed →
          job'.result = some result' → result'.get "scan_id" = .ok (.int n) → id' = id) ∧
    ∀ row ∈ rows s.session.db .scans, row ∈ rows db₀ .scans ∨
      (∃ id job, s.scan.job? id = some job ∧ Settled job ∧
        row.cells .userId = .integer job.userId ∧ row.cells .target = .text job.target) ∨
      ∃ now scan, .call ⟨now, .saveScan scan⟩ ∈ ls ∧ StoresScan p scan row := by
  have F := filed_run H hids hrun
  have hcompleted : ∀ id job, s.scan.job? id = some job → job.status = .completed →
      s.scan.completed? id = some job.result := by
    intro id job hjob hstatus
    rw [completed?, hjob, Option.bind_some, if_pos hstatus]
  refine ⟨fun id job hjob hstatus => ?_, fun row hrow => ?_⟩
  · obtain ⟨n, result, hmem, hresult, hscan⟩ := F.completed id _ (hcompleted id job hjob hstatus)
    refine ⟨result, n, hresult, hscan, ?_, ?_⟩
    · obtain ⟨row, ⟨job', hjob', -, hrow⟩, hpresent⟩ := F.present id n hmem
      cases hjob.symm.trans hjob'
      rcases hpresent with hstored | ⟨userId, howner, hdeleted⟩
      · exact .inr (hrow.listed F.hasSchema (F.users id job hjob) hstored hstatus hresult)
      · rw [hrow.owner, Value.integer.injEq] at howner
        rw [hrow.id, ← howner] at hdeleted
        exact .inl hdeleted
    · intro id' job' result' hjob' hstatus' hresult' hscan'
      obtain ⟨n', result'', hmem', hresult'', hscan''⟩ :=
        F.completed id' _ (hcompleted id' job' hjob' hstatus')
      cases hresult'.symm.trans hresult''
      cases hscan'.symm.trans hscan''
      have hpair := List.inj_on_of_nodup_map F.scans hmem' hmem rfl
      exact congrArg Prod.fst hpair
  · rcases F.source row hrow with hstart | ⟨id, n, -, job, hjob, hsettled, hof⟩ | hcall
    · exact .inl hstart
    · exact .inr (.inl ⟨id, job, hjob, hsettled, hof.owner, hof.target⟩)
    · exact .inr (.inr hcall)

/-- The scan of `example.com` for the first user, from the submission to its end. -/
def exampleRun : List Label :=
  [.scan .startup, .scan (.scanAsync 7 ⟨"example.com", "full"⟩ 1), .scan .take, .scan .wake,
   .scan .wake, .scan .wake, .scan .wake, .scan .wake,
   .finish (.returned (.obj [("risk", .str "LOW")])) .null (.ok ())]

theorem completed_in_history_example : ∃ s job result n,
    exec (step sharedPlatform fun _ => ⟨""⟩) ⟨.init, ⟨sharedDb, []⟩⟩ exampleRun = some s ∧
    s.scan.job? 7 = some job ∧ job.result = some result ∧ Listed s.session.db job result n := by
  obtain ⟨s, hs⟩ : ∃ s, exec (step sharedPlatform fun _ => ⟨""⟩) ⟨.init, ⟨sharedDb, []⟩⟩
    exampleRun = some s := ⟨_, rfl⟩
  obtain ⟨parent, H⟩ : ∃ parent, HasSchema parent sharedDb :=
    initDb_hasSchema (.current (.inl rfl) (.inl rfl) fun _ => .inl rfl) rfl
  obtain ⟨job, hjob, hstatus⟩ : ∃ job, s.scan.job? 7 = some job ∧ job.status = .completed := by
    cases hs
    exact ⟨_, rfl, rfl⟩
  have hdeleted : ∀ user, deletedBy user s.session.trace = [] := by
    cases hs
    intro user
    rfl
  obtain ⟨result, n, hresult, -, hlisted, -⟩ :=
    (completed_in_history H ⟨_, rfl, by decide⟩ hs).1 7 job hjob hstatus
  rw [hdeleted] at hlisted
  exact ⟨s, job, result, n, hs, hjob, hresult, hlisted.resolve_left List.not_mem_nil⟩

end ThreatScanner.Service.History
