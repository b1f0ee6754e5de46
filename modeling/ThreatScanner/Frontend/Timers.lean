import ThreatScanner.Frontend.BulkPage
import ThreatScanner.Frontend.LiveScan
import ThreatScanner.Library.Polling
import ThreatScanner.Library.Slots

/-!
# The timers of the pages

Both pages keep the number of their timer in one variable, end that timer when a scan is started,
poll once and then set the next one. So two starts that overlap leave a timer behind that nothing
ends.
-/

namespace ThreatScanner.Frontend

open Transition

/-! ## The live view -/

section Live
variable {render : Json → Option String} {user : Scan.UserId} {s t : LiveState} {page page' : Page}

/-- The polling of the live view. -/
def LiveState.polling (s : LiveState) : Polling where
  waiting := s.posts.length
  opening := s.polls.countP Poll.first
  current := s.page.currentScanPollTimer
  live := s.page.intervals
  next := s.page.nextTimer

/-- A response that ends the timer. -/
def Response.ends : Response → Bool
  | state job => decide (job.status ≠ .queued ∧ job.status ≠ .running)
  | refused _ | lost => true

def liveLabels (s : LiveState) : Event → List Polling.Label
  | .click target _ => if target = "" then [] else [.click]
  | .started i =>
    match s.posts[i]? with
    | some ⟨_, _, some (.accepted _)⟩ => [.start]
    | some ⟨_, _, some _⟩ => [.giveUp]
    | _ => []
  | .deliver i =>
    match s.polls[i]? with
    | some ⟨_, first, some response⟩ =>
      (if response.ends then [.drop] else []) ++ if first then [.settle] else []
    | _ => []
  | _ => []

/-- The timers of two pages are the same. -/
def SameTimers (page page' : Page) : Prop :=
  page.currentScanPollTimer = page'.currentScanPollTimer ∧ page.intervals = page'.intervals ∧
    page.nextTimer = page'.nextTimer

theorem sameTimers_dropTwice : SameTimers page.dropTimer.dropTimer page.dropTimer := by
  refine ⟨rfl, ?_, rfl⟩
  show (page.dropTimer.intervals.filter _) = page.dropTimer.intervals
  exact List.filter_eq_self.mpr fun _ _ => by simp [Page.dropTimer]

theorem sameTimers_showReport (result : Json) :
    SameTimers (showReport render page.dropJob result) page.dropTimer := by
  unfold showReport
  cases render result with
  | some html => exact ⟨rfl, rfl, rfl⟩
  | none => exact sameTimers_dropTwice

theorem sameTimers_poll (render : Json → Option String) (page : Page) (response : Response) :
    SameTimers (pollScanStatus render page response)
      (if response.ends then page.dropTimer else page) := by
  cases response with
  | lost => exact ⟨rfl, rfl, rfl⟩
  | refused => exact ⟨rfl, rfl, rfl⟩
  | state job =>
    cases hstatus : job.status with
    | completed =>
      simp only [pollScanStatus, hstatus, Response.ends]
      cases job.result.filter truthy with
      | none => exact ⟨rfl, rfl, rfl⟩
      | some result => exact sameTimers_showReport result
    | _ =>
      simp only [pollScanStatus, hstatus, Response.ends]
      exact ⟨rfl, rfl, rfl⟩

/-- States with as many starts under way and the same timers have the same polling. -/
theorem polling_congr (hposts : s.posts.length = t.posts.length)
    (hpolls : s.polls.countP Poll.first = t.polls.countP Poll.first)
    (htimers : SameTimers s.page t.page) : s.polling = t.polling :=
  Polling.ext hposts hpolls htimers.1 htimers.2.1 htimers.2.2

/-- What a poll does to the timers before `scan()` goes on. -/
theorem poll_describes (render : Json → Option String) (s : LiveState) (response : Response) :
    exec Polling.step s.polling (if response.ends then [.drop] else []) =
      some { s with page := pollScanStatus render s.page response }.polling := by
  rw [polling_congr (s := { s with page := pollScanStatus render s.page response })
    (t := { s with page := if response.ends then s.page.dropTimer else s.page })
    rfl rfl (sameTimers_poll render s.page response)]
  split
  · rw [exec_singleton, Polling.step_eq_some]
    exact ⟨rfl, rfl⟩
  · rw [exec_nil]

/-- A poll that is not the first of a start is sent. -/
theorem polling_sendAgain (s : LiveState) (jobId : Option Scan.JobId) :
    (s.send jobId false).polling = s.polling :=
  polling_congr rfl List.countP_append ⟨rfl, rfl, rfl⟩

/-- A poll gets its response. -/
theorem polling_setPoll {server : Scan.ScanState} {i : Nat} {jobId : Option Scan.JobId}
    {first : Bool} {response : Option Response} (hpoll : s.polls[i]? = some ⟨jobId, first, none⟩) :
    ({ s with server, polls := s.polls.set i ⟨jobId, first, response⟩ } : LiveState).polling =
      s.polling :=
  polling_congr rfl (Slots.countP_set_eq hpoll rfl) ⟨rfl, rfl, rfl⟩

/-- What neither starts a scan nor handles a response leaves the timers as they are. -/
theorem polling_eq {e : Event} (h : step render user s e = some t) :
    match e with
    | .click .. | .started _ | .deliver _ => True
    | _ => t.polling = s.polling := by
  cases step_liveMove h with
  | noTarget | click | started | deliver => trivial
  | answerPost | losePost => exact polling_congr List.length_set rfl ⟨rfl, rfl, rfl⟩
  | tick => exact polling_sendAgain ..
  | answerPoll hpoll | losePoll hpoll => exact polling_setPoll hpoll
  | @cancelled _ _ accepted =>
    cases accepted with
    | true => exact polling_sendAgain ..
    | false => rfl
  | _ => rfl

theorem liveClick_describes {target profile : String}
    (h : step render user s (.click target profile) = some t) :
    exec Polling.step s.polling (liveLabels s (.click target profile)) = some t.polling := by
  cases step_liveMove h with
  | noTarget => rfl
  | click htarget =>
    rw [liveLabels, if_neg htarget, exec_singleton, Polling.step_eq_some]
    have hlength : (s.posts ++ [Post.mk target profile none]).length = s.posts.length + 1 :=
      List.length_append
    exact ⟨rfl, Polling.ext hlength.symm rfl rfl rfl rfl⟩

theorem liveStarted_describes {i : Nat} (h : step render user s (.started i) = some t) :
    exec Polling.step s.polling (liveLabels s (.started i)) = some t.polling := by
  cases step_liveMove h with
  | @started _ _ _ reply hpost =>
    have hi : i < s.posts.length := (List.getElem?_eq_some_iff.mp hpost).1
    have hpos : 0 < s.posts.length := Nat.zero_lt_of_lt hi
    have hlength : s.posts.length - 1 = (s.posts.eraseIdx i).length :=
      (List.length_eraseIdx_of_lt hi).symm
    cases reply with
    | accepted job =>
      simp only [liveLabels, hpost, exec_singleton, Polling.step_eq_some]
      have hcount : (s.polls ++ [Poll.mk (some job.jobId) true none]).countP Poll.first =
          s.polls.countP Poll.first + 1 := List.countP_append
      exact ⟨decide_eq_true hpos, Polling.ext hlength hcount.symm rfl rfl rfl⟩
    | _ =>
      simp only [liveLabels, hpost, exec_singleton, Polling.step_eq_some]
      exact ⟨decide_eq_true hpos, Polling.ext hlength rfl rfl rfl rfl⟩

theorem liveDeliver_describes {i : Nat} (h : step render user s (.deliver i) = some t) :
    exec Polling.step s.polling (liveLabels s (.deliver i)) = some t.polling := by
  cases step_liveMove h with
  | @deliver _ first _ response hpoll =>
    have hcount := Slots.countP_eraseIdx (p := Poll.first) hpoll
    simp only [liveLabels, hpoll]
    refine exec_append_some.mpr ⟨_, poll_describes render s response, ?_⟩
    cases first with
    | false => exact congrArg some (Polling.ext rfl hcount.symm rfl rfl rfl)
    | true =>
      have hpos : 0 < s.polls.countP Poll.first :=
        List.countP_pos_iff.mpr ⟨_, List.mem_of_getElem? hpoll, rfl⟩
      rw [if_pos rfl, exec_singleton, Polling.step_eq_some]
      exact ⟨decide_eq_true hpos, Polling.ext rfl hcount.symm rfl rfl rfl⟩

theorem live_describes :
    Polling.Describes (step render user) LiveState.polling liveLabels := by
  intro s e t hstep
  cases e with
  | click target profile => exact liveClick_describes hstep
  | started i => exact liveStarted_describes hstep
  | deliver i => exact liveDeliver_describes hstep
  | _ => exact congrArg some (polling_eq hstep).symm

theorem liveLabels_mem_shapes (s : LiveState) (e : Event) : liveLabels s e ∈ Polling.shapes := by
  cases e with
  | click target profile =>
    simp only [liveLabels]
    split <;> decide
  | started i =>
    simp only [liveLabels]
    split <;> decide
  | deliver i =>
    simp only [liveLabels]
    split
    · split_ifs <;> decide
    · decide
  | _ => exact List.mem_cons_self

/-- `scan()` is called with no other call of it under way. -/
def scanIdle (s : LiveState) : Event → Prop
  | .click _ _ => s.posts = [] ∧ s.polls.countP Poll.first = 0
  | _ => True

theorem idle_of_scanIdle {e : Event} (hidle : scanIdle s e) (h : .click ∈ liveLabels s e) :
    s.polling.waiting + s.polling.opening = 0 := by
  have hlabels := Polling.eq_click_of_shapes (liveLabels_mem_shapes s e) h
  cases e with
  | click target profile =>
    obtain ⟨hposts, hpolls⟩ : s.posts = [] ∧ s.polls.countP Poll.first = 0 := hidle
    show s.posts.length + s.polls.countP Poll.first = 0
    rw [hposts, hpolls]
    rfl
  | started i =>
    simp only [liveLabels] at hlabels
    split at hlabels <;> cases hlabels
  | deliver i =>
    simp only [liveLabels] at hlabels
    split at hlabels
    · split_ifs at hlabels <;> cases hlabels
    · cases hlabels
  | _ => cases hlabels

/-- The interval of the live view. -/
theorem live_timers :
    Polling.TimersKept (step render user) LiveState.polling scanIdle LiveState.init :=
  live_describes.timersKept liveLabels_mem_shapes rfl fun _ _ => idle_of_scanIdle

/-- Two scans whose first polls overlap leave the interval 0 behind. -/
example (render : Json → Option String) : (exec (step render 1) .init
      [.server .startup, .click "a.example" "full", .click "b.example" "full", .answerPost 0 1,
        .answerPost 1 2, .started 0, .started 0, .answerPoll 0, .answerPoll 1, .deliver 0,
        .deliver 0]).map
      LiveState.polling = some ⟨0, 0, some 1, [0, 1], 2⟩ := by
  rfl

end Live

/-! ## The page of bulk scans -/

section Bulk
variable {lower upper : String → String} {render : Bulk.BulkView → Except String String}
variable {user : Scan.UserId} {s t : BulkPageState}

/-- The function that sets the timer. -/
def Poller.starts (poller : Poller) : Bool := decide (poller = .startBulkScan)

/-- A request that `startBulkScan` awaits before it sets the timer. -/
def BulkRequest.opens (request : BulkRequest) : Bool :=
  decide (request.kind ≠ .cancel) && request.poller.starts

/-- The polling of the page of bulk scans. -/
def BulkPageState.polling (s : BulkPageState) : Polling where
  waiting := s.posts.length
  opening := s.requests.countP BulkRequest.opens
  current := s.page.currentBulkPollTimer
  live := s.page.intervals
  next := s.page.nextTimer

/-- The end of a function that awaits a poll. -/
def Poller.labels (poller : Poller) : List Polling.Label :=
  if poller.starts then [.settle] else []

def bulkLabels (s : BulkPageState) : BulkEvent → List Polling.Label
  | .click targets _ => if targets = [] then [] else [.click]
  | .started i =>
    match s.posts[i]? with
    | some ⟨_, _, some (.state _)⟩ => [.start]
    | some ⟨_, _, some _⟩ => [.giveUp]
    | _ => []
  | .handle i =>
    match s.requests[i]? with
    | some ⟨.status, _, poller, some (.state view)⟩ =>
      if view.status.terminal then [.drop] else poller.labels
    | some ⟨.status, _, poller, some _⟩ => .drop :: poller.labels
    | some ⟨.results, _, poller, some _⟩ => poller.labels
    | _ => []
  | _ => []

/-- The polling with one more request under way. -/
def BulkPageState.awaiting (s : BulkPageState) (opens : Bool) : Polling :=
  { s.polling with opening := s.polling.opening + if opens then 1 else 0 }

/-- A request leaves the list. -/
theorem polling_eraseIdx {i : ℕ} {request : BulkRequest} (h : s.requests[i]? = some request) :
    s.polling =
      ({ s with requests := s.requests.eraseIdx i } : BulkPageState).awaiting request.opens := by
  refine Polling.ext rfl ?_ rfl rfl rfl
  obtain ⟨hi, rfl⟩ := List.getElem?_eq_some_iff.mp h
  show s.requests.countP BulkRequest.opens = _
  rw [← (List.getElem_cons_eraseIdx_perm hi).countP_eq, List.countP_cons]
  rfl

/-- A function that awaits a poll goes on. -/
theorem resume_describes (s : BulkPageState) (poller : Poller) :
    exec Polling.step (s.awaiting poller.starts) poller.labels =
      some (s.resume poller).polling := by
  cases poller with
  | startBulkScan =>
    have hpos : 0 < s.polling.opening + 1 := Nat.succ_pos _
    exact exec_singleton.trans (Polling.step_eq_some.mpr ⟨decide_eq_true hpos, rfl⟩)
  | interval => rfl
  | cancelBulkScan => rfl

/-- It sends another request instead. -/
theorem polling_send (s : BulkPageState) (kind : RequestKind) (bulkId : Bulk.BulkId)
    (poller : Poller) :
    (s.send kind bulkId poller).polling =
      s.awaiting (BulkRequest.mk kind bulkId poller none).opens := by
  refine Polling.ext rfl ?_ rfl rfl rfl
  show (s.requests ++ [BulkRequest.mk kind bulkId poller none]).countP BulkRequest.opens = _
  rw [List.countP_append, List.countP_singleton]
  rfl

/-- A request gets its reply. -/
theorem polling_setRequest {server : Jobs.JobsState} {i : Nat} {kind : RequestKind}
    {bulkId : Bulk.BulkId} {poller : Poller} {reply : Option BulkReply}
    (h : s.requests[i]? = some ⟨kind, bulkId, poller, none⟩) :
    ({ s with server, requests := s.requests.set i ⟨kind, bulkId, poller, reply⟩ } :
      BulkPageState).polling = s.polling :=
  Polling.ext rfl (Slots.countP_set_eq h rfl) rfl rfl rfl

/-- What neither starts a bulk scan nor handles a reply leaves the timers as they are. -/
theorem bulkPolling_eq {e : BulkEvent} (h : bulkStep lower upper render user s e = some t) :
    match e with
    | .click .. | .started _ | .handle _ => True
    | _ => t.polling = s.polling := by
  cases bulkStep_move h with
  | noTargets | click | started | poll | load | cancelled => trivial
  | answerPost | losePost => exact Polling.ext List.length_set rfl rfl rfl rfl
  | tick | clickCancel => exact polling_send ..
  | answer hrequest | lose hrequest => exact polling_setRequest hrequest
  | _ => rfl

theorem bulkClick_describes {targets : List String} {profile : String}
    (h : bulkStep lower upper render user s (.click targets profile) = some t) :
    exec Polling.step s.polling (bulkLabels s (.click targets profile)) = some t.polling := by
  cases bulkStep_move h with
  | noTargets => rfl
  | click htargets =>
    rw [bulkLabels, if_neg htargets, exec_singleton, Polling.step_eq_some]
    have hlength : (s.posts ++ [BulkPost.mk targets profile none]).length = s.posts.length + 1 :=
      List.length_append
    exact ⟨rfl, Polling.ext hlength.symm rfl rfl rfl rfl⟩

theorem bulkStarted_describes {i : Nat}
    (h : bulkStep lower upper render user s (.started i) = some t) :
    exec Polling.step s.polling (bulkLabels s (.started i)) = some t.polling := by
  cases bulkStep_move h with
  | @started _ _ _ reply hpost =>
    have hi : i < s.posts.length := (List.getElem?_eq_some_iff.mp hpost).1
    have hpos : 0 < s.posts.length := Nat.zero_lt_of_lt hi
    have hlength : s.posts.length - 1 = (s.posts.eraseIdx i).length :=
      (List.length_eraseIdx_of_lt hi).symm
    cases reply with
    | state view =>
      simp only [bulkLabels, hpost, exec_singleton, Polling.step_eq_some]
      have hcount : (s.requests ++ [BulkRequest.mk .status view.bulkScanId .startBulkScan
          none]).countP BulkRequest.opens = s.requests.countP BulkRequest.opens + 1 :=
        List.countP_append
      exact ⟨decide_eq_true hpos, Polling.ext hlength hcount.symm rfl rfl rfl⟩
    | _ =>
      simp only [bulkLabels, hpost, exec_singleton, Polling.step_eq_some]
      exact ⟨decide_eq_true hpos, Polling.ext hlength rfl rfl rfl rfl⟩

section Handle
variable {i : Nat} {bulkId : Bulk.BulkId} {poller : Poller} {reply : BulkReply}

/-- `pollBulkStatus` ends the timer where it fails or finds the scan at its end; then it asks for
the results before the function that awaits it goes on. -/
theorem bulkPoll_describes (h : s.requests[i]? = some ⟨.status, bulkId, poller, some reply⟩) :
    exec Polling.step s.polling (bulkLabels s (.handle i)) =
      some ({ s with requests := s.requests.eraseIdx i }.poll bulkId poller reply).polling := by
  rw [polling_eraseIdx h]
  simp only [bulkLabels, h]
  generalize ({ s with requests := s.requests.eraseIdx i } : BulkPageState) = s₀
  cases reply with
  | state view =>
    simp only [BulkPageState.poll]
    split
    · rw [polling_send]
      rfl
    · exact resume_describes { s₀ with page := s₀.page.renderBulkStatus view } poller
  | _ =>
    refine exec_cons_some.mpr ⟨_, Polling.step_eq_some.mpr ⟨rfl, rfl⟩, ?_⟩
    exact resume_describes
      { s₀ with page := { s₀.page.dropTimer with bulkStatus := .error _ } } poller

theorem bulkLoad_describes (h : s.requests[i]? = some ⟨.results, bulkId, poller, some reply⟩) :
    exec Polling.step s.polling (bulkLabels s (.handle i)) =
      some ({ s with requests := s.requests.eraseIdx i }.load render poller reply).polling := by
  rw [polling_eraseIdx h]
  simp only [bulkLabels, h]
  generalize ({ s with requests := s.requests.eraseIdx i } : BulkPageState) = s₀
  cases reply with
  | state view =>
    exact resume_describes { s₀ with
      page := { s₀.page with lastReport := some (.bulk view), bulkResults := _ } } poller
  | _ =>
    exact resume_describes
      { s₀ with page := { s₀.page with bulkResults := .error "Bulk Results Error" _ } } poller

theorem bulkCancelled_describes (h : s.requests[i]? = some ⟨.cancel, bulkId, poller, some reply⟩) :
    exec Polling.step s.polling (bulkLabels s (.handle i)) =
      some ({ s with requests := s.requests.eraseIdx i }.afterCancel reply).polling := by
  rw [polling_eraseIdx h]
  simp only [bulkLabels, h, BulkPageState.afterCancel]
  split
  · rw [polling_send]
    rfl
  · rfl

end Handle

theorem bulk_describes :
    Polling.Describes (bulkStep lower upper render user) BulkPageState.polling bulkLabels := by
  intro s e t hstep
  cases e with
  | click targets profile => exact bulkClick_describes hstep
  | started i => exact bulkStarted_describes hstep
  | handle i =>
    cases bulkStep_move hstep with
    | poll hrequest => exact bulkPoll_describes hrequest
    | load hrequest => exact bulkLoad_describes hrequest
    | cancelled hrequest => exact bulkCancelled_describes hrequest
  | _ => exact congrArg some (bulkPolling_eq hstep).symm

theorem bulkLabels_mem_shapes (s : BulkPageState) (e : BulkEvent) :
    bulkLabels s e ∈ Polling.shapes := by
  have hpoller : ∀ poller : Poller,
      poller.labels ∈ Polling.shapes ∧ .drop :: poller.labels ∈ Polling.shapes := by
    rintro (_ | _ | _) <;> decide
  cases e with
  | click targets profile =>
    simp only [bulkLabels]
    split <;> decide
  | started i =>
    simp only [bulkLabels]
    split <;> decide
  | handle i =>
    simp only [bulkLabels]
    split
    · split
      · decide
      · exact (hpoller _).1
    · exact (hpoller _).2
    · exact (hpoller _).1
    · decide
  | _ => exact List.mem_cons_self

/-- `startBulkScan` is called with no other call of it under way. -/
def startBulkScanIdle (s : BulkPageState) : BulkEvent → Prop
  | .click _ _ => s.posts = [] ∧ s.requests.countP BulkRequest.opens = 0
  | _ => True

theorem idle_of_startBulkScanIdle {e : BulkEvent} (hidle : startBulkScanIdle s e)
    (h : .click ∈ bulkLabels s e) : s.polling.waiting + s.polling.opening = 0 := by
  have hlabels := Polling.eq_click_of_shapes (bulkLabels_mem_shapes s e) h
  have hpoller : ∀ poller : Poller, poller.labels ≠ [.click] := by
    rintro (_ | _ | _) <;> decide
  cases e with
  | click targets profile =>
    obtain ⟨hposts, hrequests⟩ : s.posts = [] ∧ s.requests.countP BulkRequest.opens = 0 := hidle
    show s.posts.length + s.requests.countP BulkRequest.opens = 0
    rw [hposts, hrequests]
    rfl
  | started i =>
    simp only [bulkLabels] at hlabels
    split at hlabels <;> cases hlabels
  | handle i =>
    simp only [bulkLabels] at hlabels
    split at hlabels
    · split_ifs at hlabels
      · cases hlabels
      · exact absurd hlabels (hpoller _)
    · cases hlabels
    · exact absurd hlabels (hpoller _)
    · cases hlabels
  | _ => cases hlabels

/-- The interval of the page of bulk scans. -/
theorem bulk_timers : Polling.TimersKept (bulkStep lower upper render user) BulkPageState.polling
    startBulkScanIdle BulkPageState.init :=
  bulk_describes.timersKept bulkLabels_mem_shapes rfl fun _ _ => idle_of_startBulkScanIdle

end Bulk

end ThreatScanner.Frontend
