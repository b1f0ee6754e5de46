import ThreatScanner.Frontend.BulkPage
import ThreatScanner.Jobs.Retention

/-!
# The results that the page of bulk scans shows

The page reads the results of a bulk scan once, when it has seen a terminal status, and shows them
until another scan is started. What it shows is never taken back by the service, and of a completed
scan it shows the findings that the service keeps.
-/

namespace ThreatScanner.Frontend

open Bulk Jobs Transition

variable {lower upper : String → String} {render : BulkView → Except String String}
variable {user : Scan.UserId} {server server' : JobsState} {s t : BulkPageState} {view : BulkView}

/-! ## What the service answers -/

/-- The view was given to the user, and the service keeps what it says. -/
def Stands (user : Scan.UserId) (server : JobsState) (view : BulkView) : Prop :=
  ∃ r job, server.bulkJobs.get? view.bulkScanId = some r ∧ job.userId = (user : ℤ) ∧
    view = publicBulkView view.bulkScanId job ∧ job.Later r.state.job

theorem Stands.step {l : Jobs.Label} (h : Stands user server view) (K : Kept server)
    (hstep : Jobs.step lower upper server l = some server') : Stands user server' view := by
  obtain ⟨r, job, hr, howner, hview, hlater⟩ := h
  obtain ⟨r', hr', hlater'⟩ := step_later K hstep hr
  exact ⟨r', job, hr', howner, hview, hlater.trans hlater'⟩

/-- The answer to a request for results. -/
theorem stands_of_results {bulkId : BulkId}
    (h : askBulk lower upper user server (.bulkScanResults bulkId) = some (.state view, server')) :
    Stands user server view := by
  simp only [askBulk, serve, withBulkJob, Option.map_some, Option.some.injEq, Prod.mk.injEq] at h
  split at h
  · cases h.1
  · next r hr =>
    have hreply := h.1
    unfold Bulk.bulkScanResults at hreply
    split at hreply
    · cases hreply
    · next howner =>
      cases hreply
      exact ⟨r, r.state.job, hr, not_not.mp howner, rfl, .refl _⟩

/-! ## What the page makes of it -/

/-- The results that the page has got, or has in an answer that it has not handled. -/
structure AllResults (P : BulkView → Prop) (s : BulkPageState) : Prop where
  replies : ∀ request ∈ s.requests, request.kind = .results →
    ∀ view, request.reply = some (.state view) → P view
  report : ∀ view, s.page.lastReport = some (.bulk view) → P view
  shown : ∀ view html, s.page.bulkResults = .results view html → P view

namespace AllResults

variable {P Q : BulkView → Prop}

theorem init : AllResults P .init := by
  refine ⟨fun _ h => (List.not_mem_nil h).elim, fun view h => ?_, fun view html h => ?_⟩
  · cases h
  · cases h

theorem imp (h : AllResults P s) (himp : ∀ view, P view → Q view) : AllResults Q s :=
  ⟨fun request hmem hkind view hreply => himp view (h.replies request hmem hkind view hreply),
    fun view hview => himp view (h.report view hview),
    fun view html hview => himp view (h.shown view html hview)⟩

/-- The page shows something else, or the same as before. -/
theorem withPage (h : AllResults P s) (page : BulkPage)
    (hreport : page.lastReport = s.page.lastReport)
    (hresults : ∀ view html, page.bulkResults = .results view html → P view) :
    AllResults P { s with page := page } :=
  ⟨h.replies, fun view hview => h.report view (hreport.symm.trans hview), hresults⟩

theorem send (h : AllResults P s) (kind : RequestKind) (bulkId : BulkId) (poller : Poller) :
    AllResults P (s.send kind bulkId poller) := by
  refine ⟨fun request hmem hkind view hreply => ?_, h.report, h.shown⟩
  rcases List.mem_append.mp hmem with hmem | hmem
  · exact h.replies request hmem hkind view hreply
  · obtain rfl := List.mem_singleton.mp hmem
    cases hreply

theorem resume (h : AllResults P s) (poller : Poller) : AllResults P (s.resume poller) := by
  unfold BulkPageState.resume
  split
  · exact h.withPage _ rfl h.shown
  · exact h

theorem reply (h : AllResults P s) (server : JobsState) {i : Nat} {request : BulkRequest}
    (hreply : request.kind = .results → ∀ view, request.reply = some (.state view) → P view) :
    AllResults P { s with server, requests := s.requests.set i request } := by
  refine ⟨fun request' hmem => ?_, h.report, h.shown⟩
  rcases List.mem_or_eq_of_mem_set hmem with hmem | rfl
  · exact h.replies request' hmem
  · exact hreply

theorem eraseIdx (h : AllResults P s) (i : Nat) :
    AllResults P { s with requests := s.requests.eraseIdx i } :=
  ⟨fun request hmem => h.replies request (List.mem_of_mem_eraseIdx hmem), h.report, h.shown⟩

theorem poll (h : AllResults P s) (bulkId : BulkId) (poller : Poller) (reply : BulkReply) :
    AllResults P (s.poll bulkId poller reply) := by
  cases reply with
  | state view =>
    have hpanel : ∀ view' html,
        (s.page.renderBulkStatus view).bulkResults = .results view' html → P view' := by
      intro view' html hresults
      simp only [BulkPage.renderBulkStatus] at hresults
      cases hrunning : (Frontend.renderBulkStatus view).running with
      | none =>
        rw [hrunning] at hresults
        exact h.shown view' html hresults
      | some card =>
        rw [hrunning] at hresults
        cases hresults
    unfold BulkPageState.poll
    dsimp only
    split
    · exact (h.withPage (s.page.renderBulkStatus view).dropTimer rfl hpanel).send ..
    · exact (h.withPage (s.page.renderBulkStatus view) rfl hpanel).resume _
  | _ =>
    exact (h.withPage { s.page.dropTimer with bulkStatus := .error _ } rfl h.shown).resume _

theorem start (h : AllResults P s) (targets : List String) (profile : String) :
    AllResults P (s.start targets profile) :=
  ⟨h.replies, h.report, fun _ _ hresults => BulkResultsBox.noConfusion hresults⟩

theorem begin (h : AllResults P s) (reply : BulkReply) : AllResults P (s.begin reply) := by
  cases reply with
  | state view =>
    exact (h.withPage { s.page.clearInterval with currentBulkJobId := some view.bulkScanId } rfl
      h.shown).send ..
  | _ =>
    exact ⟨h.replies, h.report, fun _ _ hresults => BulkResultsBox.noConfusion hresults⟩

theorem afterCancel (h : AllResults P s) (reply : BulkReply) :
    AllResults P (s.afterCancel reply) := by
  unfold BulkPageState.afterCancel
  split
  · exact h.send ..
  · exact h

theorem load (h : AllResults P s) (render : BulkView → Except String String) (poller : Poller)
    {reply : BulkReply} (hreply : ∀ view, reply = .state view → P view) :
    AllResults P (s.load render poller reply) := by
  cases reply with
  | state view =>
    have hview : P view := hreply view rfl
    refine resume
      (s := { s with page := { s.page with lastReport := some (.bulk view), bulkResults := _ } })
      ⟨h.replies, fun view' hreport => ?_, fun view' html hresults => ?_⟩ poller
    · cases hreport
      exact hview
    · cases hrender : render view with
      | ok html' =>
        simp only [hrender] at hresults
        cases hresults
        exact hview
      | error message =>
        simp only [hrender] at hresults
        cases hresults
  | _ =>
    exact (h.withPage { s.page with bulkResults := .error "Bulk Results Error" _ } rfl
      fun _ _ hresults => BulkResultsBox.noConfusion hresults).resume _

end AllResults

/-! ## Runs -/

theorem serve_of_askBulk {call : Call} {reply : BulkReply}
    (h : askBulk lower upper user server call = some (reply, server')) :
    Jobs.step lower upper server (.call user call) = some server' := by
  obtain ⟨⟨answer, server''⟩, hserve, heq⟩ := Option.map_eq_some_iff.mp h
  cases heq
  exact Option.map_eq_some_iff.mpr ⟨_, hserve, rfl⟩

theorem resume_server (s : BulkPageState) (poller : Poller) :
    (s.resume poller).server = s.server := by
  unfold BulkPageState.resume
  split <;> rfl

theorem poll_server (s : BulkPageState) (bulkId : BulkId) (poller : Poller) (reply : BulkReply) :
    (s.poll bulkId poller reply).server = s.server := by
  cases reply with
  | state view =>
    unfold BulkPageState.poll
    dsimp only
    split
    · rfl
    · exact resume_server _ _
  | _ => exact resume_server _ _

theorem load_server (s : BulkPageState) (poller : Poller) (reply : BulkReply) :
    (s.load render poller reply).server = s.server := by
  cases reply with
  | _ => exact resume_server _ _

theorem afterCancel_server (s : BulkPageState) (reply : BulkReply) :
    (s.afterCancel reply).server = s.server := by
  unfold BulkPageState.afterCancel
  split <;> rfl

/-- An event is a step of the service at most. -/
theorem bulkStep_server {e : BulkEvent} (h : bulkStep lower upper render user s e = some t) :
    t.server = s.server ∨ ∃ l, Jobs.step lower upper s.server l = some t.server := by
  cases bulkStep_move h with
  | server hstep => exact .inr ⟨_, hstep⟩
  | answerPost _ hask | answer _ hask => exact .inr ⟨_, serve_of_askBulk hask⟩
  | @started _ _ _ reply => cases reply <;> exact .inl rfl
  | poll => exact .inl (poll_server ..)
  | load => exact .inl (load_server ..)
  | cancelled => exact .inl (afterCancel_server ..)
  | _ => exact .inl rfl

/-- The results after an event, given that they stand in the service then. -/
theorem bulkStep_results {e : BulkEvent} {P : BulkView → Prop} (hresults : AllResults P s)
    (hanswer : ∀ bulkId view server, askBulk lower upper user s.server (.bulkScanResults bulkId) =
      some (.state view, server) → P view)
    (h : bulkStep lower upper render user s e = some t) : AllResults P t := by
  have hposts : ∀ server posts, AllResults P { s with server, posts } := fun _ _ =>
    ⟨hresults.replies, hresults.report, hresults.shown⟩
  cases bulkStep_move h with
  | server | answerPost | losePost => exact hposts ..
  | report =>
    refine ⟨hresults.replies, fun view hreport => ?_, hresults.shown⟩
    cases hreport
  | noTargets | idleTick | nothingToCancel => exact hresults
  | click => exact hresults.start ..
  | started => exact (hposts ..).begin _
  | tick | clickCancel => exact hresults.send ..
  | answer _ hask =>
    refine hresults.reply _ ?_
    rintro rfl view ⟨⟩
    exact hanswer _ view _ hask
  | lose =>
    refine hresults.reply s.server fun _ view hlost => ?_
    cases hlost
  | poll => exact (hresults.eraseIdx _).poll ..
  | load hrequest =>
    refine (hresults.eraseIdx _).load render _ fun view hview => ?_
    exact hresults.replies _ (List.mem_of_getElem? hrequest) rfl view (congrArg some hview)
  | cancelled => exact (hresults.eraseIdx _).afterCancel _

/-- The results that the page has stand in every state of every run. -/
theorem run_results {es : List BulkEvent}
    (hrun : exec (bulkStep lower upper render user) .init es = some s) :
    AllResults (Stands user s.server) s ∧ ∃ ls, run lower upper ls = some s.server := by
  refine exec_invariant (fun s => AllResults (Stands user s.server) s ∧
    ∃ ls, run lower upper ls = some s.server) ?_ ⟨.init, [], rfl⟩ hrun
  rintro s e t ⟨hresults, ls, hls⟩ hstep
  have hstands : ∀ view, Stands user s.server view → Stands user t.server view := by
    intro view hview
    rcases bulkStep_server hstep with hsame | ⟨l, hl⟩
    · rwa [hsame]
    · exact hview.step (run_kept hls) hl
  refine ⟨bulkStep_results (hresults.imp hstands)
    (fun _ view _ hask => hstands view (stands_of_results hask)) hstep, ?_⟩
  · rcases bulkStep_server hstep with hsame | ⟨l, hl⟩
    · exact ⟨ls, hsame ▸ hls⟩
    · exact ⟨ls ++ [l], exec_concat_some.mpr ⟨_, hls, hl⟩⟩

/-- Whatever the page shows of the results of a bulk scan, or keeps for download, is of a scan of
its user; the service takes none of these results back, and it keeps the findings of a completed
scan as they are shown. -/
theorem shown_results_stand {es : List BulkEvent}
    (hrun : exec (bulkStep lower upper render user) .init es = some s)
    (hview : s.page.lastReport = some (.bulk view) ∨
      ∃ html, s.page.bulkResults = .results view html) :
    ∃ r, s.server.bulkJobs.get? view.bulkScanId = some r ∧ r.state.job.userId = (user : ℤ) ∧
      (∃ results, view.results = some results ∧ results <+: r.state.job.results) ∧
      (view.status = .completed → r.state.job.status = .completed ∧
        (publicBulkView view.bulkScanId r.state.job).findings = view.findings) := by
  obtain ⟨hresults, -⟩ := run_results hrun
  obtain ⟨r, job, hr, howner, heq, hlater⟩ : Stands user s.server view := by
    rcases hview with hreport | ⟨html, hshown⟩
    · exact hresults.report view hreport
    · exact hresults.shown view html hshown
  generalize view.bulkScanId = bulkId at heq hr ⊢
  subst heq
  refine ⟨r, hr, hlater.owner.trans howner, ⟨job.results, rfl, hlater.results⟩, fun hdone => ?_⟩
  obtain ⟨hdone', hsame⟩ := hlater.completed hdone
  exact ⟨hdone', findings_publicBulkView hsame⟩

/-- A bulk scan of one target, whose analysis times out, until its results are shown. -/
def shownRun : List BulkEvent :=
  [.click ["c.example"] "quick",
    .answerPost 0 5 fun _ => ⟨.error ⟨"timed out"⟩, .ok .null, .ok 1, .ok ()⟩,
    .started 0, .server (.bulk 5 .launch), .server (.bulk 5 (.pass 0)), .answer 0, .handle 0,
    .server (.bulk 5 (.analyzed 0)), .tick 0, .server (.bulk 5 .finish), .answer 0, .handle 0,
    .answer 0, .handle 0]

def completedView (page : BulkPage) : Option BulkView :=
  match page.lastReport with
  | some (.bulk view) => if view.status = .completed then some view else none
  | _ => none

theorem of_completedView {page : BulkPage} (h : completedView page = some view) :
    page.lastReport = some (.bulk view) ∧ view.status = .completed := by
  unfold completedView at h
  split at h
  · next view' hreport =>
    split at h
    · next hdone =>
      cases h
      exact ⟨hreport, hdone⟩
    · cases h
  · cases h

theorem shown_results_stand_timeout : ∃ s view,
    exec (bulkStep id id (fun _ => .ok "") 7) .init shownRun = some s ∧
      s.page.lastReport = some (.bulk view) ∧ view.status = .completed ∧
      ∃ r, s.server.bulkJobs.get? view.bulkScanId = some r ∧ r.state.job.userId = (7 : ℕ) ∧
        (∃ results, view.results = some results ∧ results <+: r.state.job.results) ∧
        (view.status = .completed → r.state.job.status = .completed ∧
          (publicBulkView view.bulkScanId r.state.job).findings = view.findings) := by
  have hthere : ((exec (bulkStep id id (fun _ => .ok "") 7) .init shownRun).bind
      fun s => completedView s.page).isSome = true := by
    decide +kernel
  obtain ⟨view, h⟩ := Option.isSome_iff_exists.mp hthere
  obtain ⟨s, hs, hview⟩ := Option.bind_eq_some_iff.mp h
  obtain ⟨hreport, hdone⟩ := of_completedView hview
  exact ⟨s, view, hs, hreport, hdone, shown_results_stand hs (.inl hreport)⟩

end ThreatScanner.Frontend
