import ThreatScanner.Frontend.Values
import ThreatScanner.Scan.System

/-!
# The live view of a scan

`scan()`, `pollScanStatus()` and `cancelCurrentScan()` of `app.js` on one page, with the backend
they talk to. The page keeps one job id and one timer for all its scans. JavaScript runs a function
to its next `await`, so that is one step of the page; the backend answers a request in one step, or
the request is lost, and the page handles the response in a later one. `LiveMove` lists what a step
can do.
-/

namespace ThreatScanner.Frontend

open Scan

/-- `a || b` for strings. -/
def textOr (a b : String) : String := if a = "" then b else a

/-- The progress card: the fields `renderLiveScanStatus` and `progressStepsFromStatus` read. -/
structure LiveCard where
  target : String
  profile : String
  status : JobStatus
  heading : String
  progress : Nat
  step : String
  queuePosition : Option Nat
deriving DecidableEq

def liveCard (target profile : String) (status : JobStatus) (phase : String) (progress : Nat)
    (step : String) (queuePosition : Option Nat) : LiveCard where
  target := textOr target "-"
  profile := textOr profile "-"
  status := status
  heading := textOr (textOr phase step) "Preparing scan"
  progress := progress
  step := textOr step "Scan queued"
  queuePosition := queuePosition.filter (· ≠ 0)

/-- The `type` of `showMessage`. -/
inductive Severity where
  | info | success | error
deriving DecidableEq

/-- What the element `out` shows. -/
inductive Card where
  | blank
  | starting (target profile : String)
  | live (card : LiveCard)
  | report (html : String)
  | message (text : String) (type : Severity)
deriving DecidableEq

/-- The variables of the page, its live intervals and the number of the next one. -/
structure Page where
  out : Card
  statusBox : String
  lastReport : Option Json
  currentScanJobId : Option JobId
  currentScanPollTimer : Option Nat
  intervals : List Nat
  nextTimer : Nat

namespace Page

def blank : Page := ⟨.blank, "", none, none, none, [], 0⟩

def renderLiveScanStatus (page : Page) (card : LiveCard) : Page :=
  { page with out := .live card, statusBox := card.status.text ++ " — " ++ card.step }

def showMessage (page : Page) (text : String) (type : Severity) : Page :=
  { page with out := .message text type }

/-- `clearInterval(currentScanPollTimer)`. -/
def clearInterval (page : Page) : Page :=
  { page with
    intervals := page.intervals.filter fun timer => page.currentScanPollTimer ≠ some timer }

def dropTimer (page : Page) : Page := { page.clearInterval with currentScanPollTimer := none }

def dropJob (page : Page) : Page := { page.dropTimer with currentScanJobId := none }

/-- `currentScanPollTimer = setInterval(...)`. -/
def setTimer (page : Page) : Page :=
  { page with
    currentScanPollTimer := some page.nextTimer
    intervals := page.intervals ++ [page.nextTimer]
    nextTimer := page.nextTimer + 1 }

end Page

/-- What a poll gets: the state of the job, an error status with its `detail`, or no answer. -/
inductive Response where
  | state (job : ScanJob)
  | refused (detail : String)
  | lost

/-- `pollScanStatus` on a completed job with a report. `render` is `renderScanResult`: the markup
of a report, or none where it throws. -/
def showReport (render : Json → Option String) (page : Page) (result : Json) : Page :=
  let page := { page with lastReport := some result, statusBox := "✅ Scan completed" }
  match render result with
  | some html => { page with out := .report html }
  | none => page.dropTimer.showMessage "Live scan connection failed" .error

/-- `pollScanStatus` from the end of its `fetch`. -/
def pollScanStatus (render : Json → Option String) (page : Page) : Response → Page
  | .lost => page.dropTimer.showMessage "Live scan connection failed" .error
  | .refused detail =>
    page.dropTimer.showMessage (textOr detail "Could not read scan status") .error
  | .state job =>
    let page := page.renderLiveScanStatus <|
      liveCard job.target job.profile job.status job.phase job.progress job.step job.queuePosition
    match job.status with
    | .completed =>
      match job.result.filter truthy with
      | none => page.dropJob.showMessage "Scan completed, but no result returned" .success
      | some result => showReport render page.dropJob result
    | .failed => page.dropJob.showMessage (textOr (job.error.getD "") "Scan failed") .error
    | .cancelled => page.dropJob.showMessage "Scan cancelled" .info
    | .queued | .running => page

/-- What `scan()` gets for its request: a job, the `detail` of an error, or why there is none. -/
inductive PostReply where
  | accepted (job : ScanAsyncResponse)
  | refused (detail : String)
  | lost (message : String)

def postReply : Except HttpError ScanAsyncResponse → PostReply
  | .ok job => .accepted job
  | .error e => .refused e.detail

/-- A `POST /scan-async` that `scan()` awaits. -/
structure Post where
  target : String
  profile : String
  reply : Option PostReply

/-- A `GET /scan-status` under way; `first` is the one `scan()` awaits. The job may be `null`. -/
structure Poll where
  jobId : Option JobId
  first : Bool
  response : Option Response

/-- A `POST /cancel-scan` that `cancelCurrentScan` awaits, and whether it was answered with success.
-/
structure Cancel where
  jobId : JobId
  accepted : Option Bool

structure LiveState where
  server : ScanState
  page : Page
  posts : List Post
  polls : List Poll
  cancels : List Cancel

namespace LiveState

def init : LiveState := ⟨.init, .blank, [], [], []⟩

def send (s : LiveState) (jobId : Option JobId) (first : Bool) : LiveState :=
  { s with polls := s.polls ++ [⟨jobId, first, none⟩] }

/-- `scan()` up to its request. -/
def start (s : LiveState) (target profile : String) : LiveState :=
  { s with
    page := { s.page with out := .starting target profile }
    posts := s.posts ++ [⟨target, profile, none⟩] }

/-- `scan()` from the end of `startAsyncScan` to its first poll. The old timer is cleared, and its
number is kept. -/
def startPolling (s : LiveState) (target profile : String) (job : ScanAsyncResponse) : LiveState :=
  let page := { s.page with currentScanJobId := some job.jobId }
  let page := page.renderLiveScanStatus <|
    liveCard target profile job.status "Queued" 0 (textOr job.message "Scan queued")
      job.queuePosition
  { s with page := page.clearInterval }.send (some job.jobId) true

/-- `scan()` from the reply to its request. -/
def begin (s : LiveState) (target profile : String) : PostReply → LiveState
  | .accepted job => s.startPolling target profile job
  | .refused detail =>
    { s with page := s.page.showMessage (textOr detail "Could not start async scan") .error }
  | .lost message =>
    { s with page := s.page.showMessage (textOr message "Cannot start live scan") .error }

/-- A response is handled; after the first poll `scan()` sets its timer. -/
def handle (render : Json → Option String) (s : LiveState) (first : Bool) (response : Response) :
    LiveState :=
  let page := pollScanStatus render s.page response
  { s with page := if first then page.setTimer else page }

/-- `cancelCurrentScan` from the reply to its request: the job that is polled is the page's, if it
has one then. -/
def afterCancel (s : LiveState) (accepted : Bool) : LiveState :=
  if accepted then
    { s with page := { s.page with statusBox := "Scan cancel requested" } }.send
      s.page.currentScanJobId false
  else s

end LiveState

/-- The answer to a poll. No job has the id `null`. -/
def askStatus (server : ScanState) (user : UserId) : Option JobId → Response × ScanState
  | none => (.refused "Scan job not found", server)
  | some jobId =>
    match scanStatus server jobId user with
    | (.ok job, server) => (.state job, server)
    | (.error e, server) => (.refused e.detail, server)

inductive Event where
  /-- A step of the backend that is none of the page's requests. -/
  | server (l : Scan.Label)
  /-- `scan()` up to its request, with the trimmed target. -/
  | click (target profile : String)
  | answerPost (i : Nat) (jobId : JobId)
  | losePost (i : Nat) (message : String)
  | started (i : Nat)
  | tick (timer : Nat)
  | answerPoll (i : Nat)
  | losePoll (i : Nat)
  | deliver (i : Nat)
  /-- `cancelCurrentScan` up to its request. -/
  | clickCancel
  | answerCancel (i : Nat)
  | loseCancel (i : Nat)
  | cancelled (i : Nat)

/-- One step of the page of the given user and the backend. -/
def step (render : Json → Option String) (user : UserId) (s : LiveState) :
    Event → Option LiveState
  | .server l => (Scan.step s.server l).map fun server => { s with server }
  | .click target profile => if target = "" then some s else some (s.start target profile)
  | .answerPost i jobId =>
    match s.posts[i]? with
    | some ⟨target, profile, none⟩ =>
      if fresh : jobId ∉ s.server.scanJobs.keys then
        let (answer, server) := scanAsync s.server jobId fresh ⟨target, profile⟩ user
        some { s with server, posts := s.posts.set i ⟨target, profile, some (postReply answer)⟩ }
      else none
    | _ => none
  | .losePost i message =>
    match s.posts[i]? with
    | some ⟨target, profile, none⟩ =>
      some { s with posts := s.posts.set i ⟨target, profile, some (.lost message)⟩ }
    | _ => none
  | .started i =>
    match s.posts[i]? with
    | some ⟨target, profile, some reply⟩ =>
      some ({ s with posts := s.posts.eraseIdx i }.begin target profile reply)
    | _ => none
  | .tick timer =>
    if timer ∈ s.page.intervals then
      match s.page.currentScanJobId with
      | some jobId => some (s.send (some jobId) false)
      | none => some s
    else none
  | .answerPoll i =>
    match s.polls[i]? with
    | some ⟨jobId, first, none⟩ =>
      let (response, server) := askStatus s.server user jobId
      some { s with server, polls := s.polls.set i ⟨jobId, first, some response⟩ }
    | _ => none
  | .losePoll i =>
    match s.polls[i]? with
    | some ⟨jobId, first, none⟩ =>
      some { s with polls := s.polls.set i ⟨jobId, first, some .lost⟩ }
    | _ => none
  | .deliver i =>
    match s.polls[i]? with
    | some ⟨_, first, some response⟩ =>
      some ({ s with polls := s.polls.eraseIdx i }.handle render first response)
    | _ => none
  | .clickCancel =>
    match s.page.currentScanJobId with
    | some jobId => some { s with cancels := s.cancels ++ [⟨jobId, none⟩] }
    | none => some s
  | .answerCancel i =>
    match s.cancels[i]? with
    | some ⟨jobId, none⟩ =>
      let (answer, server) := cancelScan s.server jobId user
      some { s with server, cancels := s.cancels.set i ⟨jobId, some answer.isOk⟩ }
    | _ => none
  | .loseCancel i =>
    match s.cancels[i]? with
    | some ⟨jobId, none⟩ => some { s with cancels := s.cancels.set i ⟨jobId, some false⟩ }
    | _ => none
  | .cancelled i =>
    match s.cancels[i]? with
    | some ⟨_, some accepted⟩ =>
      some ({ s with cancels := s.cancels.eraseIdx i }.afterCancel accepted)
    | _ => none

/-! ## What a step can do -/

/-- The state changes of page and backend, one constructor for each. -/
inductive LiveMove (render : Json → Option String) (user : UserId) (s : LiveState) :
    Event → LiveState → Prop where
  | server (hstep : Scan.step s.server l = some server) :
      LiveMove render user s (.server l) { s with server }
  | noTarget : LiveMove render user s (.click "" profile) s
  | click (htarget : target ≠ "") :
      LiveMove render user s (.click target profile) (s.start target profile)
  | answerPost {i : Nat} (hpost : s.posts[i]? = some ⟨target, profile, none⟩)
      (fresh : jobId ∉ s.server.scanJobs.keys) :
      LiveMove render user s (.answerPost i jobId) { s with
        server := (scanAsync s.server jobId fresh ⟨target, profile⟩ user).2
        posts := s.posts.set i ⟨target, profile,
          some (postReply (scanAsync s.server jobId fresh ⟨target, profile⟩ user).1)⟩ }
  | losePost {i : Nat} (hpost : s.posts[i]? = some ⟨target, profile, none⟩) :
      LiveMove render user s (.losePost i message) { s with
        posts := s.posts.set i ⟨target, profile, some (.lost message)⟩ }
  | started {i : Nat} {reply : PostReply}
      (hpost : s.posts[i]? = some ⟨target, profile, some reply⟩) :
      LiveMove render user s (.started i)
        ({ s with posts := s.posts.eraseIdx i }.begin target profile reply)
  | tick (htimer : timer ∈ s.page.intervals) (hjob : s.page.currentScanJobId = some jobId) :
      LiveMove render user s (.tick timer) (s.send (some jobId) false)
  | idleTick (htimer : timer ∈ s.page.intervals) (hjob : s.page.currentScanJobId = none) :
      LiveMove render user s (.tick timer) s
  | answerPoll {i : Nat} (hpoll : s.polls[i]? = some ⟨jobId, first, none⟩) :
      LiveMove render user s (.answerPoll i) { s with
        server := (askStatus s.server user jobId).2
        polls := s.polls.set i ⟨jobId, first, some (askStatus s.server user jobId).1⟩ }
  | losePoll {i : Nat} (hpoll : s.polls[i]? = some ⟨jobId, first, none⟩) :
      LiveMove render user s (.losePoll i) { s with
        polls := s.polls.set i ⟨jobId, first, some .lost⟩ }
  | deliver {i : Nat} {response : Response}
      (hpoll : s.polls[i]? = some ⟨jobId, first, some response⟩) :
      LiveMove render user s (.deliver i)
        ({ s with polls := s.polls.eraseIdx i }.handle render first response)
  | clickCancel (hjob : s.page.currentScanJobId = some jobId) :
      LiveMove render user s .clickCancel { s with cancels := s.cancels ++ [⟨jobId, none⟩] }
  | nothingToCancel (hjob : s.page.currentScanJobId = none) :
      LiveMove render user s .clickCancel s
  | answerCancel {i : Nat} (hcancel : s.cancels[i]? = some ⟨jobId, none⟩) :
      LiveMove render user s (.answerCancel i) { s with
        server := (cancelScan s.server jobId user).2
        cancels := s.cancels.set i ⟨jobId, some (cancelScan s.server jobId user).1.isOk⟩ }
  | loseCancel {i : Nat} (hcancel : s.cancels[i]? = some ⟨jobId, none⟩) :
      LiveMove render user s (.loseCancel i) { s with
        cancels := s.cancels.set i ⟨jobId, some false⟩ }
  | cancelled {i : Nat} {accepted : Bool}
      (hcancel : s.cancels[i]? = some ⟨jobId, some accepted⟩) :
      LiveMove render user s (.cancelled i)
        ({ s with cancels := s.cancels.eraseIdx i }.afterCancel accepted)

theorem step_liveMove {render : Json → Option String} {user : UserId} {s t : LiveState} {e : Event}
    (h : step render user s e = some t) :
    LiveMove render user s e t := by
  cases e with
  | server l =>
    obtain ⟨server, hstep, rfl⟩ := Option.map_eq_some_iff.mp h
    exact .server hstep
  | click target profile =>
    simp only [step] at h
    split at h
    · next htarget =>
      cases h
      subst htarget
      exact .noTarget
    · next htarget =>
      cases h
      exact .click htarget
  | answerPost i jobId =>
    simp only [step] at h
    split at h
    · next hpost =>
      split at h
      · next fresh =>
        cases h
        exact .answerPost hpost fresh
      · cases h
    · cases h
  | losePost i message =>
    simp only [step] at h
    split at h
    · next hpost =>
      cases h
      exact .losePost hpost
    · cases h
  | started i =>
    simp only [step] at h
    split at h
    · next hpost =>
      cases h
      exact .started hpost
    · cases h
  | tick timer =>
    simp only [step] at h
    split at h
    · next htimer =>
      split at h
      · next hjob =>
        cases h
        exact .tick htimer hjob
      · next hjob =>
        cases h
        exact .idleTick htimer hjob
    · cases h
  | answerPoll i =>
    simp only [step] at h
    split at h
    · next hpoll =>
      cases h
      exact .answerPoll hpoll
    · cases h
  | losePoll i =>
    simp only [step] at h
    split at h
    · next hpoll =>
      cases h
      exact .losePoll hpoll
    · cases h
  | deliver i =>
    simp only [step] at h
    split at h
    · next hpoll =>
      cases h
      exact .deliver hpoll
    · cases h
  | clickCancel =>
    simp only [step] at h
    split at h
    · next hjob =>
      cases h
      exact .clickCancel hjob
    · next hjob =>
      cases h
      exact .nothingToCancel hjob
  | answerCancel i =>
    simp only [step] at h
    split at h
    · next hcancel =>
      cases h
      exact .answerCancel hcancel
    · cases h
  | loseCancel i =>
    simp only [step] at h
    split at h
    · next hcancel =>
      cases h
      exact .loseCancel hcancel
    · cases h
  | cancelled i =>
    simp only [step] at h
    split at h
    · next hcancel =>
      cases h
      exact .cancelled hcancel
    · cases h

end ThreatScanner.Frontend
