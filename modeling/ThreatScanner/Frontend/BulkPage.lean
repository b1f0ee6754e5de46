import ThreatScanner.Frontend.BulkPanel
import ThreatScanner.Frontend.LiveScan
import ThreatScanner.Jobs.System

/-!
# The page of bulk scans

`startBulkScan`, `pollBulkStatus`, `loadBulkResults` and `cancelBulkScan` of `app.js` on one page,
with the service they talk to. As with the live view, JavaScript runs to its next `await` in one
step, the service answers a request in one step, and the page handles the answer in a later one.
The page keeps its job and its timer when a bulk scan is over, and another start replaces them. The
live view on the same page shares `lastReport` with it. `BulkMove` lists what a step can do.
-/

namespace ThreatScanner.Frontend

open Bulk Jobs

/-- What the element `bulkStatus` shows. -/
inductive BulkStatusBox where
  | blank
  | starting (targets : Nat)
  | panel (panel : BulkPanel)
  | error (text : String)

/-- What the element `bulkResults` shows. -/
inductive BulkResultsBox where
  | blank
  | starting (targets : Nat)
  | running (card : BulkRunningCard)
  | results (view : BulkView) (html : String)
  | error (title text : String)

/-- What `lastReport` holds. -/
inductive LastReport where
  | scan (result : Json)
  | bulk (view : BulkView)

/-- The variables of the page, its live intervals and the number of the next one. -/
structure BulkPage where
  bulkStatus : BulkStatusBox
  bulkResults : BulkResultsBox
  lastReport : Option LastReport
  currentBulkJobId : Option BulkId
  currentBulkPollTimer : Option Nat
  intervals : List Nat
  nextTimer : Nat

namespace BulkPage

def blank : BulkPage := ⟨.blank, .blank, none, none, none, [], 0⟩

/-- `clearInterval(currentBulkPollTimer)`. -/
def clearInterval (page : BulkPage) : BulkPage :=
  { page with
    intervals := page.intervals.filter fun timer => page.currentBulkPollTimer ≠ some timer }

def dropTimer (page : BulkPage) : BulkPage :=
  { page.clearInterval with currentBulkPollTimer := none }

/-- `currentBulkPollTimer = setInterval(...)`. -/
def setTimer (page : BulkPage) : BulkPage :=
  { page with
    currentBulkPollTimer := some page.nextTimer
    intervals := page.intervals ++ [page.nextTimer]
    nextTimer := page.nextTimer + 1 }

/-- `renderBulkStatus`. -/
def renderBulkStatus (page : BulkPage) (view : BulkView) : BulkPage :=
  let panel := Frontend.renderBulkStatus view
  { page with
    bulkStatus := .panel panel
    bulkResults := (panel.running.map .running).getD page.bulkResults }

end BulkPage

/-- What the page reads of an answer: the state of a job, the `detail` of an error, or why there is
none. -/
inductive BulkReply where
  | state (view : BulkView)
  | refused (detail : String)
  | lost (message : String)

def bulkReply : Except HttpError Answer → BulkReply
  | .ok (.bulkStarted view _) | .ok (.bulk view) => .state view
  | .ok _ => .refused ""
  | .error e => .refused e.detail

/-- The message of the error that is thrown where there is no state. -/
def BulkReply.message (reply : BulkReply) (fallback : String) : String :=
  match reply with
  | refused detail => textOr detail fallback
  | lost message => message
  | state _ => ""

/-- The function that awaits a poll. -/
inductive Poller where
  | startBulkScan
  | interval
  | cancelBulkScan
deriving DecidableEq

/-- A `POST /bulk-scan/start`. -/
structure BulkPost where
  targets : List String
  profile : String
  reply : Option BulkReply

inductive RequestKind where
  | status
  | results
  | cancel
deriving DecidableEq

/-- A request about a job; that for its results belongs to the poll before it. -/
structure BulkRequest where
  kind : RequestKind
  bulkId : BulkId
  poller : Poller
  reply : Option BulkReply

def BulkRequest.call (request : BulkRequest) : Call :=
  match request.kind with
  | .status => .bulkScanStatus request.bulkId
  | .results => .bulkScanResults request.bulkId
  | .cancel => .bulkScanCancel request.bulkId

structure BulkPageState where
  server : JobsState
  page : BulkPage
  posts : List BulkPost
  requests : List BulkRequest

def BulkPageState.init : BulkPageState := ⟨.init, .blank, [], []⟩

inductive BulkEvent where
  /-- A step of the service that is none of the page's requests. -/
  | server (l : Jobs.Label)
  /-- The live view has got a report. -/
  | report (result : Json)
  /-- `startBulkScan` up to its request, with the targets of `normalizeBulkTargets`. -/
  | click (targets : List String) (profile : String)
  | answerPost (i : Nat) (bulkId : BulkId) (effects : String → Effects)
  | losePost (i : Nat) (message : String)
  | started (i : Nat)
  | tick (timer : Nat)
  /-- `cancelBulkScan` up to its request. -/
  | clickCancel
  | answer (i : Nat)
  | lose (i : Nat) (message : String)
  | handle (i : Nat)

namespace BulkPageState

def send (s : BulkPageState) (kind : RequestKind) (bulkId : BulkId) (poller : Poller) :
    BulkPageState :=
  { s with requests := s.requests ++ [⟨kind, bulkId, poller, none⟩] }

/-- `startBulkScan` up to its request. -/
def start (s : BulkPageState) (targets : List String) (profile : String) : BulkPageState :=
  { s with
    page := { s.page with
      bulkStatus := .starting targets.length
      bulkResults := .starting targets.length }
    posts := s.posts ++ [⟨targets, profile, none⟩] }

/-- The end of a function that awaits a poll. -/
def resume (s : BulkPageState) (poller : Poller) : BulkPageState :=
  if poller = .startBulkScan then { s with page := s.page.setTimer } else s

/-- `startBulkScan` from the reply to its request. -/
def begin (s : BulkPageState) (reply : BulkReply) : BulkPageState :=
  match reply with
  | .state view =>
    let page := { s.page.clearInterval with currentBulkJobId := some view.bulkScanId }
    { s with page }.send .status view.bulkScanId .startBulkScan
  | .refused _ | .lost _ =>
    let text := reply.message "Bulk scan start failed"
    { s with page := { s.page with
        bulkStatus := .error text
        bulkResults := .error "Bulk Scan Error" text } }

/-- `pollBulkStatus` from the reply to its request. -/
def poll (s : BulkPageState) (bulkId : BulkId) (poller : Poller) (reply : BulkReply) :
    BulkPageState :=
  match reply with
  | .state view =>
    let page := s.page.renderBulkStatus view
    if view.status.terminal then { s with page := page.dropTimer }.send .results bulkId poller
    else { s with page }.resume poller
  | .refused _ | .lost _ =>
    let text := reply.message "Could not read bulk status"
    { s with page := { s.page.dropTimer with bulkStatus := .error text } }.resume poller

/-- `loadBulkResults` from the reply to its request. `render` is `renderBulkResults`: the markup of
the results, or the message of what it throws. -/
def load (render : BulkView → Except String String) (s : BulkPageState) (poller : Poller)
    (reply : BulkReply) : BulkPageState :=
  match reply with
  | .state view =>
    let shown := match render view with
      | .ok html => BulkResultsBox.results view html
      | .error message => .error "Bulk Results Error" message
    let page := { s.page with lastReport := some (.bulk view), bulkResults := shown }
    { s with page }.resume poller
  | .refused _ | .lost _ =>
    let text := reply.message "Could not read bulk results"
    { s with page := { s.page with bulkResults := .error "Bulk Results Error" text } }.resume poller

/-- `cancelBulkScan` from the reply to its request: the job that is polled is the page's. -/
def afterCancel (s : BulkPageState) (reply : BulkReply) : BulkPageState :=
  match reply, s.page.currentBulkJobId with
  | .state _, some bulkId => s.send .status bulkId .cancelBulkScan
  | _, _ => s

end BulkPageState

section Page
variable (lower upper : String → String) (render : BulkView → Except String String)
  (user : Scan.UserId)

/-- The reply of the service to a call of the user, and the service after it. -/
def askBulk (server : JobsState) (call : Call) : Option (BulkReply × JobsState) :=
  (serve lower upper server user call).map fun (answer, server) => (bulkReply answer, server)

/-- One step of the page of the given user and the service. -/
def bulkStep (s : BulkPageState) : BulkEvent → Option BulkPageState
  | .server l => (Jobs.step lower upper s.server l).map fun server => { s with server }
  | .report result => some { s with page := { s.page with lastReport := some (.scan result) } }
  | .click targets profile =>
    if targets = [] then some s else some (s.start targets profile)
  | .answerPost i bulkId effects =>
    match s.posts[i]? with
    | some ⟨targets, profile, none⟩ =>
      (askBulk lower upper user s.server (.bulkScanStart bulkId ⟨targets, profile, 3, true⟩
        effects)).map fun (reply, server) =>
          { s with server, posts := s.posts.set i ⟨targets, profile, some reply⟩ }
    | _ => none
  | .losePost i message =>
    match s.posts[i]? with
    | some ⟨targets, profile, none⟩ =>
      some { s with posts := s.posts.set i ⟨targets, profile, some (.lost message)⟩ }
    | _ => none
  | .started i =>
    match s.posts[i]? with
    | some ⟨_, _, some reply⟩ => some ({ s with posts := s.posts.eraseIdx i }.begin reply)
    | _ => none
  | .tick timer =>
    if timer ∈ s.page.intervals then
      match s.page.currentBulkJobId with
      | some bulkId => some (s.send .status bulkId .interval)
      | none => some s
    else none
  | .clickCancel =>
    match s.page.currentBulkJobId with
    | some bulkId => some (s.send .cancel bulkId .cancelBulkScan)
    | none => some s
  | .answer i =>
    match s.requests[i]? with
    | some ⟨kind, bulkId, poller, none⟩ =>
      (askBulk lower upper user s.server (BulkRequest.call ⟨kind, bulkId, poller, none⟩)).map
        fun (reply, server) =>
          { s with server, requests := s.requests.set i ⟨kind, bulkId, poller, some reply⟩ }
    | _ => none
  | .lose i message =>
    match s.requests[i]? with
    | some ⟨kind, bulkId, poller, none⟩ =>
      some { s with requests := s.requests.set i ⟨kind, bulkId, poller, some (.lost message)⟩ }
    | _ => none
  | .handle i =>
    match s.requests[i]? with
    | some ⟨kind, bulkId, poller, some reply⟩ =>
      let s := { s with requests := s.requests.eraseIdx i }
      match kind with
      | .status => some (s.poll bulkId poller reply)
      | .results => some (s.load render poller reply)
      | .cancel => some (s.afterCancel reply)
    | _ => none

/-! ## What a step can do -/

/-- The state changes of page and service, one constructor for each. -/
inductive BulkMove (s : BulkPageState) : BulkEvent → BulkPageState → Prop where
  | server (hstep : Jobs.step lower upper s.server l = some server) :
      BulkMove s (.server l) { s with server }
  | report : BulkMove s (.report result)
      { s with page := { s.page with lastReport := some (.scan result) } }
  | noTargets : BulkMove s (.click [] profile) s
  | click (htargets : targets ≠ []) :
      BulkMove s (.click targets profile) (s.start targets profile)
  | answerPost {i : Nat} {reply : BulkReply}
      (hpost : s.posts[i]? = some ⟨targets, profile, none⟩)
      (hask : askBulk lower upper user s.server (.bulkScanStart bulkId ⟨targets, profile, 3, true⟩
        effects) = some (reply, server)) :
      BulkMove s (.answerPost i bulkId effects)
        { s with server, posts := s.posts.set i ⟨targets, profile, some reply⟩ }
  | losePost {i : Nat} (hpost : s.posts[i]? = some ⟨targets, profile, none⟩) :
      BulkMove s (.losePost i message)
        { s with posts := s.posts.set i ⟨targets, profile, some (.lost message)⟩ }
  | started {i : Nat} {reply : BulkReply}
      (hpost : s.posts[i]? = some ⟨targets, profile, some reply⟩) :
      BulkMove s (.started i) ({ s with posts := s.posts.eraseIdx i }.begin reply)
  | tick (htimer : timer ∈ s.page.intervals) (hjob : s.page.currentBulkJobId = some bulkId) :
      BulkMove s (.tick timer) (s.send .status bulkId .interval)
  | idleTick (htimer : timer ∈ s.page.intervals) (hjob : s.page.currentBulkJobId = none) :
      BulkMove s (.tick timer) s
  | clickCancel (hjob : s.page.currentBulkJobId = some bulkId) :
      BulkMove s .clickCancel (s.send .cancel bulkId .cancelBulkScan)
  | nothingToCancel (hjob : s.page.currentBulkJobId = none) : BulkMove s .clickCancel s
  | answer {i : Nat} {reply : BulkReply}
      (hrequest : s.requests[i]? = some ⟨kind, bulkId, poller, none⟩)
      (hask : askBulk lower upper user s.server (BulkRequest.call ⟨kind, bulkId, poller, none⟩) =
        some (reply, server)) :
      BulkMove s (.answer i)
        { s with server, requests := s.requests.set i ⟨kind, bulkId, poller, some reply⟩ }
  | lose {i : Nat} (hrequest : s.requests[i]? = some ⟨kind, bulkId, poller, none⟩) :
      BulkMove s (.lose i message)
        { s with requests := s.requests.set i ⟨kind, bulkId, poller, some (.lost message)⟩ }
  | poll {i : Nat} {reply : BulkReply}
      (hrequest : s.requests[i]? = some ⟨.status, bulkId, poller, some reply⟩) :
      BulkMove s (.handle i)
        ({ s with requests := s.requests.eraseIdx i }.poll bulkId poller reply)
  | load {i : Nat} {reply : BulkReply}
      (hrequest : s.requests[i]? = some ⟨.results, bulkId, poller, some reply⟩) :
      BulkMove s (.handle i)
        ({ s with requests := s.requests.eraseIdx i }.load render poller reply)
  | cancelled {i : Nat} {reply : BulkReply}
      (hrequest : s.requests[i]? = some ⟨.cancel, bulkId, poller, some reply⟩) :
      BulkMove s (.handle i) ({ s with requests := s.requests.eraseIdx i }.afterCancel reply)

variable {lower upper render user}

theorem bulkStep_move {s t : BulkPageState} {e : BulkEvent}
    (h : bulkStep lower upper render user s e = some t) :
    BulkMove lower upper render user s e t := by
  cases e with
  | server l =>
    obtain ⟨server, hstep, rfl⟩ := Option.map_eq_some_iff.mp h
    exact .server hstep
  | report result =>
    cases h
    exact .report
  | click targets profile =>
    simp only [bulkStep] at h
    split at h
    · next htargets =>
      cases h
      subst htargets
      exact .noTargets
    · next htargets =>
      cases h
      exact .click htargets
  | answerPost i bulkId effects =>
    simp only [bulkStep] at h
    split at h
    · next hpost =>
      obtain ⟨⟨reply, server⟩, hask, rfl⟩ := Option.map_eq_some_iff.mp h
      exact .answerPost hpost hask
    · cases h
  | losePost i message =>
    simp only [bulkStep] at h
    split at h
    · next hpost =>
      cases h
      exact .losePost hpost
    · cases h
  | started i =>
    simp only [bulkStep] at h
    split at h
    · next hpost =>
      cases h
      exact .started hpost
    · cases h
  | tick timer =>
    simp only [bulkStep] at h
    split at h
    · next htimer =>
      split at h
      · next hjob =>
        cases h
        exact .tick htimer hjob
      · next hjob =>
        cases h
        exact .idleTick htimer hjob
    · cases h
  | clickCancel =>
    simp only [bulkStep] at h
    split at h
    · next hjob =>
      cases h
      exact .clickCancel hjob
    · next hjob =>
      cases h
      exact .nothingToCancel hjob
  | answer i =>
    simp only [bulkStep] at h
    split at h
    · next hrequest =>
      obtain ⟨⟨reply, server⟩, hask, rfl⟩ := Option.map_eq_some_iff.mp h
      exact .answer hrequest hask
    · cases h
  | lose i message =>
    simp only [bulkStep] at h
    split at h
    · next hrequest =>
      cases h
      exact .lose hrequest
    · cases h
  | handle i =>
    simp only [bulkStep] at h
    split at h
    · next kind bulkId poller reply hrequest =>
      cases kind with
      | status =>
        cases h
        exact .poll hrequest
      | results =>
        cases h
        exact .load hrequest
      | cancel =>
        cases h
        exact .cancelled hrequest
    · cases h

end Page

end ThreatScanner.Frontend
