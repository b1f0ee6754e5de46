import ThreatScanner.Frontend.LiveScan

/-!
# The live view follows the latest scan

The page is meant to poll the scan that was started last until it has handled a terminal response
for it, and then to show that outcome until the next scan is started (`FollowsLatest`). A response
is handled without a look at the job it is for or at what was handled before, so both can go wrong;
the end of the file says on which runs they do not.
-/

namespace ThreatScanner.Frontend

open Scan Transition

variable {render : Json → Option String} {user : UserId}

/-! ## What is to be followed -/

/-- How a job has ended, with its report or its error. -/
inductive Outcome where
  | completed (result : Option Json)
  | failed (error : Option String)
  | cancelled

/-- The end of the job that a response tells, if it is a terminal one. -/
def Response.outcome? : Response → Option Outcome
  | state job =>
    match job.status with
    | .completed => some (.completed job.result)
    | .failed => some (.failed job.error)
    | .cancelled => some .cancelled
    | .queued | .running => none
  | refused _ | lost => none

/-- The job that was started last: it is followed until a terminal response for it is handled, and
over then, with its outcome and the card that was shown unless a scan has been started since. -/
inductive Latest where
  | none
  | followed (jobId : JobId)
  | finished (outcome : Option (Outcome × Card))

/-- Another scan is started. -/
def Latest.leave : Latest → Latest
  | finished _ => finished .none
  | latest => latest

/-- The response of a poll is handled, and the card is shown after it. -/
def Latest.handle (jobId : Option JobId) (response : Response) (card : Card) : Latest → Latest
  | followed id =>
    match response.outcome? with
    | some outcome => if jobId = some id then finished (some (outcome, card)) else followed id
    | .none => followed id
  | latest => latest

/-- What an event in the state `s` makes of the job that was started last; `t` is the state
after it. -/
def Latest.next (s t : LiveState) : Event → Latest → Latest
  | .click target _, latest => if target = "" then latest else latest.leave
  | .started i, latest =>
    match s.posts[i]? with
    | some ⟨_, _, some (.accepted job)⟩ => followed job.jobId
    | _ => latest.leave
  | .deliver i, latest =>
    match s.polls[i]? with
    | some ⟨jobId, _, some response⟩ => latest.handle jobId response t.page.out
    | _ => latest
  | _, latest => latest

/-- A state of the page, with the job that was started last. -/
abbrev Watched := LiveState × Latest

def watch (render : Json → Option String) (user : UserId) (w : Watched) (e : Event) :
    Option Watched :=
  (step render user w.1 e).map fun t => (t, w.2.next w.1 t e)

/-- The page keeps the id of the job that is followed, and the card of the one that is over. -/
def FollowsLatest (w : Watched) : Prop :=
  match w.2 with
  | .none => True
  | .followed jobId => w.1.page.currentScanJobId = some jobId
  | .finished outcome => ∀ shownEnd ∈ outcome, w.1.page.out = shownEnd.2

/-- In every state of the run the page follows the latest scan. -/
def LiveViewFollows (render : Json → Option String) (user : UserId) (events : List Event) : Prop :=
  ∀ before rest w, events = before ++ rest →
    exec (watch render user) (.init, .none) before = some w → FollowsLatest w

/-! ## Handling a response -/

/-- What the page shows after the response. -/
def shown (render : Json → Option String) (response : Response) : Card :=
  (pollScanStatus render .blank response).out

theorem showReport_out (page page' : Page) (result : Json) :
    (showReport render page result).out = (showReport render page' result).out := by
  unfold showReport
  cases render result <;> rfl

theorem showReport_jobId (page : Page) (result : Json) :
    (showReport render page result).currentScanJobId = page.currentScanJobId := by
  unfold showReport
  cases render result <;> rfl

/-- What is shown does not depend on what was shown before. -/
theorem pollScanStatus_out (page : Page) (response : Response) :
    (pollScanStatus render page response).out = shown render response := by
  cases response with
  | lost => rfl
  | refused => rfl
  | state job =>
    simp only [shown, pollScanStatus]
    cases hstatus : job.status with
    | completed =>
      cases job.result.filter truthy with
      | none => rfl
      | some result => exact showReport_out _ _ result
    | _ => rfl

/-- A terminal response makes the page forget its job, whichever job the response is for. -/
theorem pollScanStatus_jobId (page : Page) (response : Response) :
    (pollScanStatus render page response).currentScanJobId =
      if response.outcome?.isSome then none else page.currentScanJobId := by
  cases response with
  | lost => rfl
  | refused => rfl
  | state job =>
    cases hstatus : job.status with
    | completed =>
      simp only [pollScanStatus, Response.outcome?, hstatus]
      cases job.result.filter truthy with
      | none => rfl
      | some result => exact showReport_jobId _ result
    | _ =>
      simp only [pollScanStatus, Response.outcome?, hstatus]
      rfl

/-- The card that a terminal response leaves. -/
def Outcome.card (render : Json → Option String) : Outcome → Card
  | completed result =>
    match result.filter truthy with
    | none => .message "Scan completed, but no result returned" .success
    | some result =>
      match render result with
      | some html => .report html
      | none => .message "Live scan connection failed" .error
  | failed error => .message (textOr (error.getD "") "Scan failed") .error
  | cancelled => .message "Scan cancelled" .info

/-- A terminal response shows its outcome and nothing else of the job. -/
theorem shown_of_outcome {response : Response} {outcome : Outcome}
    (h : response.outcome? = some outcome) : shown render response = outcome.card render := by
  cases response with
  | lost => cases h
  | refused => cases h
  | state job =>
    cases hstatus : job.status with
    | completed =>
      simp only [Response.outcome?, hstatus, Option.some.injEq] at h
      subst h
      simp only [shown, pollScanStatus, hstatus, Outcome.card]
      cases job.result.filter truthy with
      | none => rfl
      | some result =>
        simp only [showReport]
        cases render result <;> rfl
    | failed | cancelled =>
      simp only [Response.outcome?, hstatus, Option.some.injEq] at h
      subst h
      simp only [shown, pollScanStatus, hstatus, Outcome.card]
      rfl
    | queued | running =>
      simp only [Response.outcome?, hstatus] at h
      cases h

/-- The page after a response is handled. -/
theorem step_deliver {s t : LiveState} {i : Nat} (h : step render user s (.deliver i) = some t) :
    ∃ jobId first response, s.polls[i]? = some ⟨jobId, first, some response⟩ ∧
      t.page.out = shown render response ∧ t.page.currentScanJobId =
        if response.outcome?.isSome then none else s.page.currentScanJobId := by
  cases step_liveMove h with
  | @deliver jobId first _ response hpoll =>
    refine ⟨jobId, first, response, hpoll, ?_, ?_⟩
    · rw [← pollScanStatus_out s.page]
      cases first <;> rfl
    · cases first <;> exact pollScanStatus_jobId s.page response

/-! ## The responses that do no harm -/

/-- The response keeps what is to be kept: while a job is followed it is no terminal one of another
job, and when the job is over it shows the same card again. -/
def Harmless (render : Json → Option String) (w : Watched) : Event → Prop
  | .deliver i => ∀ poll ∈ w.1.polls[i]?, ∀ response ∈ poll.response,
    match w.2 with
    | .none => True
    | .followed jobId => response.outcome?.isSome → poll.jobId = some jobId
    | .finished outcome => ∀ shownEnd ∈ outcome, shown render response = shownEnd.2
  | _ => True

theorem deliver_iff {w : Watched} {t : LiveState} {i : Nat} (H : FollowsLatest w)
    (h : step render user w.1 (.deliver i) = some t) :
    FollowsLatest (t, w.2.next w.1 t (.deliver i)) ↔ Harmless render w (.deliver i) := by
  obtain ⟨jobId, first, response, hpoll, hout, hid⟩ := step_deliver h
  obtain ⟨s, latest⟩ := w
  simp only [Harmless, Latest.next, hpoll, Option.mem_some_iff, forall_eq']
  cases latest with
  | none => exact iff_of_true trivial trivial
  | finished outcome => simp only [Latest.handle, FollowsLatest, hout]
  | followed id =>
    have hfollowed : s.page.currentScanJobId = some id := H
    cases houtcome : response.outcome? with
    | none => simp [Latest.handle, FollowsLatest, houtcome, hid, hfollowed]
    | some outcome =>
      by_cases hjob : jobId = some id
      · simp [Latest.handle, FollowsLatest, houtcome, hjob]
      · simp [Latest.handle, FollowsLatest, houtcome, hjob, hid]

/-! ## The other events -/

section Events
variable {s t : LiveState} {latest : Latest}

theorem FollowsLatest.of_page (H : FollowsLatest (s, latest)) (hout : t.page.out = s.page.out)
    (hid : t.page.currentScanJobId = s.page.currentScanJobId) : FollowsLatest (t, latest) := by
  unfold FollowsLatest at H ⊢
  rw [hout, hid]
  exact H

theorem FollowsLatest.leave (H : FollowsLatest (s, latest))
    (h : t.page.currentScanJobId = s.page.currentScanJobId) : FollowsLatest (t, latest.leave) := by
  cases latest with
  | none => trivial
  | followed id => exact h.trans H
  | finished outcome => exact nofun

/-- Until its response arrives a request does not concern what is shown. -/
theorem step_page {e : Event} (h : step render user s e = some t) :
    match e with
    | .click .. | .started _ | .deliver _ => True
    | _ => t.page.out = s.page.out ∧ t.page.currentScanJobId = s.page.currentScanJobId := by
  cases step_liveMove h with
  | noTarget | click | started | deliver => trivial
  | @cancelled _ _ accepted => cases accepted <;> exact ⟨rfl, rfl⟩
  | _ => exact ⟨rfl, rfl⟩

theorem FollowsLatest.click {target profile : String} (H : FollowsLatest (s, latest))
    (h : step render user s (.click target profile) = some t) :
    FollowsLatest (t, latest.next s t (.click target profile)) := by
  simp only [Latest.next]
  cases step_liveMove h with
  | noTarget =>
    rw [if_pos rfl]
    exact H
  | click htarget =>
    rw [if_neg htarget]
    exact H.leave rfl

theorem FollowsLatest.started {i : Nat} (H : FollowsLatest (s, latest))
    (h : step render user s (.started i) = some t) :
    FollowsLatest (t, latest.next s t (.started i)) := by
  cases step_liveMove h with
  | @started _ _ _ reply hpost =>
    cases reply with
    | accepted job =>
      simp only [Latest.next, hpost]
      rfl
    | refused detail =>
      simp only [Latest.next, hpost]
      exact H.leave rfl
    | lost message =>
      simp only [Latest.next, hpost]
      exact H.leave rfl

end Events

/-- An event keeps the page following exactly when it is harmless. -/
theorem followsLatest_iff {w w' : Watched} {e : Event} (H : FollowsLatest w)
    (h : watch render user w e = some w') : FollowsLatest w' ↔ Harmless render w e := by
  obtain ⟨s, latest⟩ := w
  simp only [watch, Option.map_eq_some_iff] at h
  obtain ⟨t, ht, rfl⟩ := h
  cases e with
  | deliver i => exact deliver_iff H ht
  | click => exact iff_of_true (H.click ht) trivial
  | started i => exact iff_of_true (H.started ht) trivial
  | _ => exact iff_of_true (H.of_page (step_page ht).1 (step_page ht).2) trivial

theorem harmless_of_stuck {w : Watched} {e : Event} (h : watch render user w e = none) :
    Harmless render w e := by
  cases e with
  | deliver i =>
    rintro ⟨jobId, first, response?⟩ hpoll response hresponse
    rw [Option.mem_def] at hpoll hresponse
    cases hresponse
    simp only [watch, step, hpoll, Option.map_some, reduceCtorEq] at h
  | _ => trivial

/-- On a run the page follows the latest scan exactly when every response it handles is harmless. -/
theorem liveViewFollows_iff (render : Json → Option String) (user : UserId)
    (events : List Event) : LiveViewFollows render user events ↔
      AllSteps (watch render user) (Harmless render) (.init, .none) events :=
  forall_prefix_iff_allSteps FollowsLatest (fun _ _ _ => followsLatest_iff)
    (fun _ _ => harmless_of_stuck) trivial

/-! ## Responses in order -/

/-- The response is for the job that was started last, as far as it is a terminal one, and when a
terminal response for that job has been handled it has the same outcome. -/
def InOrder (w : Watched) : Event → Prop
  | .deliver i => ∀ poll ∈ w.1.polls[i]?, ∀ response ∈ poll.response,
    match w.2 with
    | .none => True
    | .followed jobId => response.outcome?.isSome → poll.jobId = some jobId
    | .finished outcome => ∀ shownEnd ∈ outcome, response.outcome? = some shownEnd.1
  | _ => True

/-- The card of a job that is over is that of its outcome. -/
def Recorded (render : Json → Option String) (w : Watched) : Prop :=
  ∀ outcome card, w.2 = .finished (some (outcome, card)) → card = outcome.card render

theorem leave_ne (latest : Latest) (shownEnd : Outcome × Card) :
    latest.leave ≠ .finished (some shownEnd) := by
  cases latest <;> exact nofun

theorem recorded_step {w w' : Watched} {e : Event} (R : Recorded render w)
    (h : watch render user w e = some w') : Recorded render w' := by
  obtain ⟨s, latest⟩ := w
  simp only [watch, Option.map_eq_some_iff] at h
  obtain ⟨t, ht, rfl⟩ := h
  intro outcome card hfinished
  cases e with
  | deliver i =>
    obtain ⟨jobId, first, response, hpoll, hout, -⟩ := step_deliver ht
    simp only [Latest.next, hpoll] at hfinished
    cases latest with
    | none => cases hfinished
    | finished => exact R outcome card hfinished
    | followed id =>
      simp only [Latest.handle] at hfinished
      split at hfinished
      · rename_i outcome' houtcome
        split at hfinished
        · cases hfinished
          exact hout.trans (shown_of_outcome houtcome)
        · cases hfinished
      · cases hfinished
  | click target profile =>
    simp only [Latest.next] at hfinished
    split at hfinished
    · exact R outcome card hfinished
    · exact (leave_ne _ _ hfinished).elim
  | started i =>
    simp only [Latest.next] at hfinished
    split at hfinished
    · cases hfinished
    · exact (leave_ne _ _ hfinished).elim
  | _ => exact R outcome card hfinished

theorem harmless_of_inOrder {w : Watched} {e : Event} (R : Recorded render w) (h : InOrder w e) :
    Harmless render w e := by
  cases e with
  | deliver i =>
    intro poll hpoll response hresponse
    have horder := h poll hpoll response hresponse
    obtain ⟨s, latest⟩ := w
    cases latest with
    | none => trivial
    | followed id => exact horder
    | finished outcome =>
      intro shownEnd hend
      rw [shown_of_outcome (horder shownEnd hend)]
      exact (R shownEnd.1 shownEnd.2 (by rw [Option.mem_def.mp hend])).symm
  | _ => trivial

/-- On a run whose responses are all in order the page follows the latest scan. -/
theorem liveView_follows (render : Json → Option String) (user : UserId) (events : List Event)
    (h : AllSteps (watch render user) InOrder (.init, .none) events) :
    LiveViewFollows render user events :=
  (liveViewFollows_iff render user events).mpr <|
    h.imp_of (Recorded render) (fun _ _ => harmless_of_inOrder) (fun _ _ _ => recorded_step) nofun

/-- Two polls of a job that is cancelled overlap, and both responses say so. -/
def agreeingResponses : List Event :=
  [.server .startup, .click "a.example" "full", .answerPost 0 1, .started 0, .answerPoll 0,
   .deliver 0, .tick 0, .tick 0, .server (.cancelScan 1 0), .answerPoll 0, .answerPoll 1,
   .deliver 0, .deliver 0]

theorem agreeingResponses_follow : LiveViewFollows (fun _ => none) 0 agreeingResponses := by
  refine liveView_follows _ _ _ <| .cons rfl trivial <| .cons rfl trivial <| .cons rfl trivial <|
    .cons rfl trivial <| .cons rfl trivial <| .cons rfl ?_ <| .cons rfl trivial <|
    .cons rfl trivial <| .cons rfl trivial <| .cons rfl trivial <| .cons rfl trivial <|
    .cons rfl ?_ <| .cons rfl ?_ .nil
  · rintro _ ⟨⟩ _ ⟨⟩ h
    cases h
  · rintro _ ⟨⟩ _ ⟨⟩ -
    rfl
  · rintro _ ⟨⟩ _ ⟨⟩ _ ⟨⟩
    rfl

/-! ## Responses out of order -/

/-- The job 1 is cancelled in the queue while its first poll is under way, and the job 2 is
started before the response is handled. -/
def lateResponse : List Event :=
  [.server .startup, .click "a.example" "full", .answerPost 0 1, .started 0,
   .server (.cancelScan 1 0), .answerPoll 0,
   .click "b.example" "full", .answerPost 0 2, .started 0, .deliver 0]

/-- Two polls of a job overlap: one is answered before the job is cancelled and handled after the
response that says so. -/
def overtakenResponse : List Event :=
  [.server .startup, .click "a.example" "full", .answerPost 0 1, .started 0,
   .answerPoll 0, .deliver 0, .tick 0, .tick 0, .answerPoll 0, .server (.cancelScan 1 0),
   .answerPoll 1, .deliver 1, .deliver 0]

/-- The late response makes the page forget the job it should follow. -/
theorem lateResponse_run :
    ∃ w, exec (watch (fun _ => none) 0) (.init, .none) lateResponse = some w ∧
      w.2 = .followed 2 ∧ w.1.page.currentScanJobId = none :=
  ⟨_, rfl, rfl, rfl⟩

/-- The overtaken one puts the progress card over the message that the scan was cancelled. -/
theorem overtakenResponse_run :
    ∃ w card, exec (watch (fun _ => none) 0) (.init, .none) overtakenResponse = some w ∧
      w.2 = .finished (some (.cancelled, .message "Scan cancelled" .info)) ∧
        w.1.page.out = .live card :=
  ⟨_, _, rfl, rfl, rfl⟩

/-- Responses that arrive out of order are enough, each a state of its job. -/
theorem responses_out_of_order : ¬LiveViewFollows (fun _ => none) 0 lateResponse ∧
    ¬LiveViewFollows (fun _ => none) 0 overtakenResponse ∧
    ¬∀ render user events, (∀ i, .losePoll i ∉ events) → .clickCancel ∉ events →
      LiveViewFollows render user events := by
  have hlate : ¬LiveViewFollows (fun _ => none) 0 lateResponse := by
    intro hfollows
    obtain ⟨w, hrun, hlatest, hid⟩ := lateResponse_run
    have H := hfollows lateResponse [] w (List.append_nil _).symm hrun
    rw [FollowsLatest, hlatest] at H
    cases hid.symm.trans H
  have hovertaken : ¬LiveViewFollows (fun _ => none) 0 overtakenResponse := by
    intro hfollows
    obtain ⟨w, card, hrun, hlatest, hout⟩ := overtakenResponse_run
    have H := hfollows overtakenResponse [] w (List.append_nil _).symm hrun
    rw [FollowsLatest, hlatest] at H
    cases hout.symm.trans (H _ rfl)
  refine ⟨hlate, hovertaken, fun hall => hlate (hall _ _ _ (fun i h => ?_) fun h => ?_)⟩
  · simp [lateResponse] at h
  · simp [lateResponse] at h

end ThreatScanner.Frontend
