import ThreatScanner.Analyzer.ReportJson
import ThreatScanner.Library.Masking

/-!
# The URLs of the archive

`get_wayback_archive_urls` asks the archive for the URLs of a host. Its answer may be any document;
one row of it that is not as the archive writes them makes the whole answer an error.
-/

namespace ThreatScanner.Bulk

open Analyzer

variable [UnicodeTables]

/-- The response of the archive: its status, and its body as `res.json()` gives it. -/
structure ArchiveResponse where
  status : ℤ
  body : Except PyError Json

/-- The host in the request. -/
def archiveHost (host : String) : String :=
  let host := replace host.toList "http://".toList []
  let host := replace host "https://".toList []
  String.ofList (strip (host.takeWhile (· ≠ '/')))

/-- The parameters of the request. -/
def archiveParams (host : String) : List (String × String) :=
  [("url", archiveHost host ++ "/*"), ("output", "json"), ("fl", "original,statuscode,mimetype"),
    ("collapse", "urlkey"), ("filter", "statuscode:200"), ("limit", "80")]

def sensitiveKeywords : List String :=
  ["admin", "login", "dashboard", "api", "backup", "config", "debug", "test", "dev", "staging",
    "old", "private", ".env", ".git", "sql", "zip", "token", "secret"]

/-- The rows behind the header. -/
def archiveRows : Json → List Json
  | .arr data => if data.length > 1 then data.drop 1 else []
  | _ => []

/-- The item for a URL with the rest of its row. -/
def archiveItem (url : String) (rest : List Json) : Option ArchivedUrl :=
  if ["http://", "https://"].any (startsWith url) then
    some { url, status := rest[0]?.getD .null, mime := rest[1]?.getD .null }
  else none

/-- The body of the loop up to the lists. The text of a value that is neither a list nor a text
does not start with a scheme. -/
def archiveRow : Json → Except PyError (Option ArchivedUrl)
  | .arr (.str url :: rest) => .ok (archiveItem url rest)
  | .arr (x :: _) =>
    if x.truthy then .error ⟨"'" ++ x.typeName ++ "' object has no attribute 'startswith'"⟩
    else .ok none
  | .str url => .ok (archiveItem url [])
  | _ => .ok none

/-- The three lists of the loop. -/
structure ArchiveLists where
  urls : List ArchivedUrl := []
  interesting : List ArchivedUrl := []
  parameterized : List ArchivedUrl := []

def isInteresting (item : ArchivedUrl) : Bool :=
  sensitiveKeywords.any (contains (lower item.url))

def isParameterized (item : ArchivedUrl) : Bool := contains item.url "?"

def ArchiveLists.add (out : ArchiveLists) (item : ArchivedUrl) : ArchiveLists where
  urls := out.urls ++ [item]
  interesting := if isInteresting item then out.interesting ++ [item] else out.interesting
  parameterized := if isParameterized item then out.parameterized ++ [item] else out.parameterized

/-- The loop over the rows. -/
def collectRows (out : ArchiveLists) : List Json → Except PyError ArchiveLists
  | [] => .ok out
  | row :: rows => do
    match ← archiveRow row with
    | none => collectRows out rows
    | some item => collectRows (out.add item) rows

/-- `get_wayback_archive_urls`, for what `client.get` gives. -/
def getWaybackArchiveUrls (get : List (String × String) → Except PyError ArchiveResponse)
    (host : Option String) : Wayback :=
  if host.getD "" = "" then { host, enabled := false, error := some "No host provided" }
  else match get (archiveParams (host.getD "")) with
    | .error e => { host, enabled := false, error := some e.message }
    | .ok res =>
      if res.status ≠ 200 then
        { host, enabled := false, error := some ("Wayback HTTP " ++ toString res.status) }
      else match res.body.bind fun data => collectRows {} (archiveRows data) with
        | .error e => { host, enabled := false, error := some e.message }
        | .ok lists =>
          { host
            urls := lists.urls.take 80
            interestingUrls := lists.interesting.take 40
            parameterizedUrls := lists.parameterized.take 40 }

/-! ## The loop -/

/-- A row whose first entry is something other than a text. -/
def Misshapen (row : Json) : Prop :=
  ∃ x rest, row = .arr (x :: rest) ∧ x.truthy = true ∧ ∀ url, x ≠ .str url

/-- The URL of a row that is not misshapen, if it has one. -/
def rowItem : Json → Option ArchivedUrl
  | .arr (.str url :: rest) => archiveItem url rest
  | .str url => archiveItem url []
  | _ => none

variable {row : Json} {rows : List Json} {out : ArchiveLists}

omit [UnicodeTables] in
theorem archiveRow_ok (h : ¬Misshapen row) : archiveRow row = .ok (rowItem row) := by
  cases row with
  | arr items =>
    cases items with
    | nil => rfl
    | cons x rest =>
      cases x with
      | str url => rfl
      | null => rfl
      | _ =>
        refine if_neg fun htruthy => h ⟨_, rest, rfl, htruthy, fun url heq => ?_⟩
        cases heq
  | _ => rfl

omit [UnicodeTables] in
theorem archiveRow_error (h : Misshapen row) : ∃ e, archiveRow row = .error e := by
  obtain ⟨x, rest, rfl, htruthy, hx⟩ := h
  unfold archiveRow
  split
  · next heq =>
    cases heq
    exact absurd rfl (hx _)
  · next heq =>
    cases heq
    exact ⟨_, if_pos htruthy⟩
  · next heq => cases heq
  · next hno _ => exact absurd rfl (hno x rest)

/-- The lists after rows none of which is misshapen. -/
def ArchiveLists.extend (out : ArchiveLists) (items : List ArchivedUrl) : ArchiveLists where
  urls := out.urls ++ items
  interesting := out.interesting ++ items.filter isInteresting
  parameterized := out.parameterized ++ items.filter isParameterized

theorem ArchiveLists.extend_cons (out : ArchiveLists) (item : ArchivedUrl)
    (items : List ArchivedUrl) : (out.add item).extend items = out.extend (item :: items) := by
  simp only [ArchiveLists.extend, ArchiveLists.add, List.filter_cons, List.append_assoc,
    List.cons_append, List.nil_append]
  split_ifs <;> simp

theorem collectRows_ok (h : ∀ row ∈ rows, ¬Misshapen row) :
    collectRows out rows = .ok (out.extend (rows.filterMap rowItem)) := by
  induction rows generalizing out with
  | nil => simp [collectRows, ArchiveLists.extend]
  | cons row rows ih =>
    have hrows : ∀ row ∈ rows, ¬Misshapen row := fun row hrow => h row (List.mem_cons_of_mem _ hrow)
    rw [collectRows, archiveRow_ok (h row List.mem_cons_self)]
    cases hitem : rowItem row with
    | none =>
      rw [List.filterMap_cons_none hitem]
      exact ih hrows
    | some item =>
      rw [List.filterMap_cons_some hitem, ← ArchiveLists.extend_cons]
      exact ih hrows

/-- One misshapen row spoils the answer. -/
theorem collectRows_error (out : ArchiveLists) (hmem : row ∈ rows) (h : Misshapen row) :
    ∃ e, collectRows out rows = .error e := by
  induction rows generalizing out with
  | nil => exact absurd hmem List.not_mem_nil
  | cons first rows ih =>
    rw [collectRows]
    by_cases hfirst : Misshapen first
    · obtain ⟨e, he⟩ := archiveRow_error hfirst
      rw [he]
      exact ⟨e, rfl⟩
    · have hmem : row ∈ rows :=
        (List.mem_cons.mp hmem).resolve_left fun heq => hfirst (heq ▸ h)
      rw [archiveRow_ok hfirst]
      cases rowItem first with
      | none => exact ih _ hmem
      | some item => exact ih _ hmem

/-! ## The answer -/

/-- The URLs that are taken from a document. -/
def archivedItems (data : Json) : List ArchivedUrl := (archiveRows data).filterMap rowItem

/-- The archive has answered with a document none of whose rows is misshapen. -/
def Answered (get : List (String × String) → Except PyError ArchiveResponse) (host : String)
    (data : Json) : Prop :=
  get (archiveParams host) = .ok ⟨200, .ok data⟩ ∧ ∀ row ∈ archiveRows data, ¬Misshapen row

/-- The call gives the URLs of the document that the archive has answered with, the first of each
kind, or else nothing but an error: no answer is taken in part. -/
theorem wayback_exact (get : List (String × String) → Except PyError ArchiveResponse)
    (host : Option String) :
    (∃ h data, host = some h ∧ h ≠ "" ∧ Answered get h data ∧
      getWaybackArchiveUrls get host = {
        host
        urls := (archivedItems data).take 80
        interestingUrls := ((archivedItems data).filter isInteresting).take 40
        parameterizedUrls := ((archivedItems data).filter isParameterized).take 40 }) ∨
    ((∀ h data, host = some h → h ≠ "" → ¬Answered get h data) ∧ ∃ error,
      getWaybackArchiveUrls get host = { host, enabled := false, error := some error }) := by
  by_cases hhost : host.getD "" = ""
  · refine .inr ⟨?_, _, if_pos hhost⟩
    rintro h data rfl hne
    exact absurd hhost hne
  · obtain ⟨h, rfl⟩ : ∃ h, host = some h := by
      cases host with
      | none => exact absurd rfl hhost
      | some h => exact ⟨h, rfl⟩
    have hcall : getWaybackArchiveUrls get (some h) = _ := if_neg hhost
    rw [hcall]
    simp only [Option.getD_some]
    cases hget : get (archiveParams h) with
    | error e =>
      refine .inr ⟨?_, _, rfl⟩
      rintro h' data ⟨⟩ - hanswer
      cases hget.symm.trans hanswer.1
    | ok res =>
      obtain ⟨status, body⟩ := res
      have hanswered : ∀ h' data, some h = some h' → Answered get h' data →
          status = 200 ∧ body = .ok data ∧ ∀ row ∈ archiveRows data, ¬Misshapen row := by
        rintro h' data ⟨⟩ ⟨hres, hrows⟩
        cases hget.symm.trans hres
        exact ⟨rfl, rfl, hrows⟩
      by_cases hstatus : status = 200
      · cases body with
        | error e =>
          refine .inr ⟨fun h' data hh _ hanswer => ?_, e.message, ?_⟩
          · cases (hanswered h' data hh hanswer).2.1
          · simp [hstatus, Except.bind]
        | ok data =>
          by_cases hrows : ∀ row ∈ archiveRows data, ¬Misshapen row
          · refine .inl ⟨h, data, rfl, hhost, ⟨by rw [hget, hstatus], hrows⟩, ?_⟩
            simp [hstatus, Except.bind, collectRows_ok hrows, ArchiveLists.extend, archivedItems]
          · simp only [not_forall, not_not] at hrows
            obtain ⟨row, hrow, hmis⟩ := hrows
            obtain ⟨e, he⟩ := collectRows_error {} hrow hmis
            refine .inr ⟨fun h' data' hh _ hanswer => ?_, e.message, ?_⟩
            · obtain ⟨-, hbody, hnone⟩ := hanswered h' data' hh hanswer
              cases hbody
              exact hnone row hrow hmis
            · simp [hstatus, Except.bind, he]
      · refine .inr ⟨fun h' data hh _ hanswer => ?_, _, if_pos hstatus⟩
        exact hstatus (hanswered h' data hh hanswer).1

end ThreatScanner.Bulk
