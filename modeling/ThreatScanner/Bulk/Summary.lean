import ThreatScanner.Python.Json

/-!
# The summary of one target of a bulk scan

`summarize_bulk_result` has two branches, and the text of the error decides which one it takes: an
error with an empty text is summarized like a success, from a result that is `None`.
`str.upper` is a parameter.
-/

namespace ThreatScanner.Bulk

open Json

/-- `add_url`: the text of a value other than a string never starts with a scheme. -/
def addUrl : Json → List String
  | .str s => if s.startsWith "http://" ∨ s.startsWith "https://" then [s] else []
  | _ => []

/-- The URLs in an item of a section. -/
def itemUrls : Json → List String
  | .obj entries => ["affected_url", "url", "evidence", "original_url"].flatMap fun key =>
      addUrl ((entries.lookup key).getD .null)
  | _ => []

def urlSections : List String :=
  ["confirmed_vulnerabilities", "possible_issues", "hardening_issues", "attack_surface",
   "findings", "vulnerability_checks", "advanced_exposures", "nikto_checks"]

/-- The URLs in the sections of the result that are lists. -/
def sectionUrls (result : Json) : List String :=
  urlSections.flatMap fun key =>
    match result.get key (.arr []) with
    | .ok (.arr items) => items.flatMap itemUrls
    | _ => []

/-- The URLs of the archive section. -/
def waybackUrls (result : Json) : Except PyError (List String) :=
  match result.get "wayback" (.obj []) with
  | .ok (.obj entries) => do
    let items ← ["interesting_urls", "parameterized_urls"].mapM fun key =>
      (((entries.lookup key).getD (.arr [])).orElse (.arr [])).iterate
    .ok (items.flatten.flatMap fun
      | .obj item => addUrl ((item.lookup "url").getD .null)
      | item => addUrl item)
  | _ => .ok []

/-- `extract_result_urls`. -/
def extractResultUrls (result : Json) : Except PyError (List String) := do
  let urls ← waybackUrls result
  .ok ((sectionUrls result ++ urls).eraseDups.take 80)

/-- The summary of a target that failed. -/
def failedSummary (target error : String) : Json :=
  .obj [("target", .str target), ("status", .str "failed"), ("risk", .str "UNKNOWN"),
    ("score", .int 0), ("error", .str error), ("vulnerable", .bool false),
    ("confirmed_count", .int 0), ("possible_count", .int 0), ("hardening_count", .int 0),
    ("attack_surface_count", .int 0), ("vulnerable_urls", .arr []), ("archive_urls", .arr [])]

/-- `result.get(key, default) or default`. -/
def getOr (result : Json) (key : String) (default : Json) : Except PyError Json := do
  let value ← result.get key default
  .ok (value.orElse default)

/-- The first URLs of the archive section, as the summary lists them. -/
def archiveUrls (wayback : Json) : Except PyError (List Json) :=
  match wayback with
  | .obj _ => do
    let urls ← ["interesting_urls", "parameterized_urls"].mapM fun key => do
      let first ← (← getOr wayback key (.arr [])).take 30
      let items ← first.iterate
      .ok (items.map fun
        | .obj item => (item.lookup "url").getD .null
        | item => item)
    let urls ← fromKeys urls.flatten
    .ok (urls.filter (·.truthy))
  | _ => .ok []

section Summarize
variable (upper : String → String)

/-- `str(risk).upper() in ["MEDIUM", "HIGH", "CRITICAL"]`; only a string has such a text. -/
def riskFlagged : Json → Bool
  | .str s => upper s ∈ ["MEDIUM", "HIGH", "CRITICAL"]
  | _ => false

/-- `summarize_bulk_result`. -/
def summarizeBulkResult (target : String) (result : Json) (error : Option String := none) :
    Except PyError Json :=
  if error.getD "" ≠ "" then .ok (failedSummary target (error.getD ""))
  else do
    let confirmed ← getOr result "confirmed_vulnerabilities" (.arr [])
    let possible ← getOr result "possible_issues" (.arr [])
    let hardening ← getOr result "hardening_issues" (.arr [])
    let attackSurface ← getOr result "attack_surface" (.arr [])
    let wayback ← getOr result "wayback" (.obj [])
    let archive ← archiveUrls wayback
    let vulnerable ← extractResultUrls result
    let risk ← result.get "risk" (.str "UNKNOWN")
    let score ← result.get "score" (.int 0)
    let scanId ← result.get "scan_id"
    let finalUrl ← result.get "final_url"
    let confirmedCount ← confirmed.len
    let possibleCount ← possible.len
    let hardeningCount ← hardening.len
    let attackSurfaceCount ← attackSurface.len
    let topConfirmed ← confirmed.take 5
    let topPossible ← possible.take 5
    let topAttackSurface ← attackSurface.take 5
    .ok (.obj [("target", .str target), ("status", .str "completed"), ("risk", risk),
      ("score", score), ("scan_id", scanId), ("final_url", finalUrl),
      ("vulnerable", .bool (confirmed.truthy || possible.truthy || riskFlagged upper risk)),
      ("confirmed_count", .int confirmedCount), ("possible_count", .int possibleCount),
      ("hardening_count", .int hardeningCount), ("attack_surface_count", .int attackSurfaceCount),
      ("vulnerable_urls", .arr (vulnerable.map .str)), ("archive_urls", .arr (archive.take 60)),
      ("top_confirmed", topConfirmed), ("top_possible", topPossible),
      ("top_attack_surface", topAttackSurface)])

end Summarize

/-! ## What the branches give -/

section Rules
variable {upper : String → String} {target : String} {result summary : Json}

/-- An item of the job is about a target and has a status. -/
def HasStatus (target status : String) (item : Json) : Prop :=
  item.get "target" = .ok (.str target) ∧ item.get "status" = .ok (.str status)

theorem failedSummary_hasStatus (target error : String) :
    HasStatus target "failed" (failedSummary target error) := ⟨rfl, rfl⟩

theorem summarizeBulkResult_completed :
    Returns (HasStatus target "completed") (summarizeBulkResult upper target result) := by
  rw [summarizeBulkResult, if_neg (by simp)]
  iterate 18 refine Returns.bind fun _ => ?_
  exact returns_ok ⟨rfl, rfl⟩

/-- What a summary takes from the result, where the verdict is concerned. -/
theorem summarizeBulkResult_entries
    (h : summarizeBulkResult upper target result = .ok summary) :
    ∃ (entries : List (String × Json)) (confirmed possible risk : Json)
      (confirmedCount possibleCount : Nat), summary = .obj entries ∧
      confirmed.len = .ok confirmedCount ∧ possible.len = .ok possibleCount ∧
      result.get "risk" (.str "UNKNOWN") = .ok risk ∧
      entries.lookup "status" = some (.str "completed") ∧ entries.lookup "risk" = some risk ∧
      entries.lookup "vulnerable" =
        some (.bool (confirmed.truthy || possible.truthy || riskFlagged upper risk)) ∧
      entries.lookup "confirmed_count" = some (.int confirmedCount) ∧
      entries.lookup "possible_count" = some (.int possibleCount) ∧
      entries.lookup "error" = none ∧ entries.lookup "result" = none := by
  rw [summarizeBulkResult, if_neg (by simp)] at h
  simp only [bind_eq_ok] at h
  obtain ⟨confirmed, -, possible, -, _, -, _, -, _, -, _, -, _, -, risk, hrisk, _, -, _, -, _, -,
    confirmedCount, hconfirmed, possibleCount, hpossible, _, -, _, -, _, -, _, -, _, -, h⟩ := h
  cases h
  exact ⟨_, confirmed, possible, risk, confirmedCount, possibleCount, rfl, hconfirmed, hpossible,
    hrisk, rfl, rfl, rfl, rfl, rfl, rfl, rfl⟩

theorem summarizeBulkResult_failed {error : String} (h : error ≠ "") :
    summarizeBulkResult upper target result (some error) = .ok (failedSummary target error) := by
  rw [summarizeBulkResult, Option.getD_some, if_pos h]

/-- With an empty text the error branch is not taken, and `None` has no `get`. -/
theorem summarizeBulkResult_silent :
    summarizeBulkResult upper target .null (some "") =
      .error ⟨"'NoneType' object has no attribute 'get'"⟩ := rfl

theorem speaks_getOr (key : String) (default : Json) : Speaks (getOr result key default) :=
  (speaks_get _ _ _).bind fun _ => speaks_ok _

theorem speaks_waybackUrls : Speaks (waybackUrls result) := by
  unfold waybackUrls
  split
  · exact (speaks_mapM (fun _ => speaks_iterate _) _).bind fun _ => speaks_ok _
  · exact speaks_ok _

theorem speaks_archiveUrls (wayback : Json) : Speaks (archiveUrls wayback) := by
  unfold archiveUrls
  split
  · refine (speaks_mapM (fun key => ?_) _).bind fun _ =>
      (speaks_fromKeys _).bind fun _ => speaks_ok _
    exact (speaks_getOr _ _).bind fun _ => (speaks_take _ _).bind fun _ =>
      (speaks_iterate _).bind fun _ => speaks_ok _
  · exact speaks_ok _

/-- What `summarize_bulk_result` raises has a message. -/
theorem speaks_summarizeBulkResult : Speaks (summarizeBulkResult upper target result) := by
  rw [summarizeBulkResult, if_neg (by simp)]
  iterate 5 refine (speaks_getOr _ _).bind fun _ => ?_
  refine (speaks_archiveUrls _).bind fun _ => ?_
  refine Speaks.bind (speaks_waybackUrls.bind fun _ => speaks_ok _) fun _ => ?_
  iterate 4 refine (speaks_get _ _ _).bind fun _ => ?_
  iterate 4 refine (speaks_len _).bind fun _ => ?_
  iterate 3 refine (speaks_take _ _).bind fun _ => ?_
  exact speaks_ok _

end Rules

end ThreatScanner.Bulk
