import ThreatScanner.Analyzer.ReportJson
import ThreatScanner.Bulk.Counters
import ThreatScanner.Frontend.Values

/-!
# The results of a bulk scan in the browser

The page decides by itself which targets have failed and which are vulnerable, from the entries of
`results`; the backend has decided the same from the reports and counted it. The two agree because
the risk of a report is ASCII text (`AsciiRisk`), as it is in every report that `analyze` returns.
-/

namespace ThreatScanner.Frontend

open Bulk Transition

/-! ## The filters -/

section Filters
variable [JsTables] [JsNumbers]

/-- `item.result || item`. -/
def resultOf (item : Json) : Json := orValue (field item "result") item

/-- `bulkGetRisk`. -/
def bulkGetRisk (item : Json) : String :=
  let risk := orValue (field (resultOf item) "risk") <|
    orValue (field item "risk") (.str "UNKNOWN")
  toUpperCase (toText risk)

/-- `bulkIsFailed`. -/
def bulkIsFailed (item : Json) : Bool :=
  toLowerCase (toText (orValue (field item "status") (.str ""))) = "failed" ||
    (field item "error").any truthy

/-- `Number(rr[count] ?? rr[list]?.length ?? 0)`. -/
def countOf (rr : Json) (count list : String) : Option ℚ :=
  toNumber (nullishOr (field rr count) (nullishOr (length? (field rr list)) (.int 0)))

/-- `bulkIsVulnerable`. -/
def bulkIsVulnerable (item : Json) : Bool :=
  if bulkIsFailed item then false
  else
    let confirmed := countOf (resultOf item) "confirmed_count" "confirmed_vulnerabilities"
    let possible := countOf (resultOf item) "possible_count" "possible_issues"
    confirmed.any (0 < ·) || possible.any (0 < ·) ||
      bulkGetRisk item ∈ ["MEDIUM", "HIGH", "CRITICAL"]

/-- The third class, which has no function of its own. -/
def bulkIsSafe (item : Json) : Bool := !bulkIsVulnerable item && !bulkIsFailed item

/-- The values of `__bulkCurrentFilter`. -/
inductive BulkFilter where
  | all | vulnerable | high | safe | failed
deriving DecidableEq

/-- `bulkFilteredResults`. -/
def bulkFilteredResults (filter : BulkFilter) (results : List Json) : List Json :=
  match filter with
  | .vulnerable => results.filter bulkIsVulnerable
  | .safe => results.filter bulkIsSafe
  | .failed => results.filter bulkIsFailed
  | .high => results.filter fun item => bulkGetRisk item ∈ ["HIGH", "CRITICAL"]
  | .all => results

/-! ## They split any list -/

variable {item : Json} {results : List Json}

theorem not_vulnerable_of_failed (h : bulkIsFailed item = true) : bulkIsVulnerable item = false :=
  if_pos h

theorem one_class (item : Json) :
    [bulkIsFailed item, bulkIsVulnerable item, bulkIsSafe item].count true = 1 := by
  cases hfailed : bulkIsFailed item with
  | true => rw [bulkIsSafe, not_vulnerable_of_failed hfailed, hfailed]; rfl
  | false =>
    rw [bulkIsSafe, hfailed]
    cases bulkIsVulnerable item <;> rfl

theorem filters_perm (results : List Json) :
    (bulkFilteredResults .failed results ++ (bulkFilteredResults .vulnerable results ++
      bulkFilteredResults .safe results)).Perm results := by
  have hrest : bulkFilteredResults .vulnerable results ++ bulkFilteredResults .safe results =
      (results.filter (!bulkIsFailed ·)).filter bulkIsVulnerable ++
        (results.filter (!bulkIsFailed ·)).filter (!bulkIsVulnerable ·) := by
    simp only [bulkFilteredResults, List.filter_filter]
    refine congrArg₂ (· ++ ·) (List.filter_congr fun item _ => ?_) rfl
    cases hfailed : bulkIsFailed item with
    | true => rw [not_vulnerable_of_failed hfailed]; rfl
    | false => rw [Bool.not_false, Bool.and_true]
  rw [hrest]
  exact ((List.filter_append_perm bulkIsVulnerable _).append_left _).trans
    (List.filter_append_perm bulkIsFailed results)

end Filters

/-! ## The reports -/

/-- The risk of a report is ASCII text. -/
def AsciiRisk (report : Json) : Prop :=
  ∃ risk : String, report.get "risk" (.str "UNKNOWN") = .ok (.str risk) ∧
    ∀ c ∈ risk.toList, c.toNat < 128

theorem AsciiRisk.congr {report result : Json} (h : AsciiRisk report)
    (hrisk : result.get "risk" (.str "UNKNOWN") = report.get "risk" (.str "UNKNOWN")) :
    AsciiRisk result := by
  obtain ⟨risk, hget, hascii⟩ := h
  exact ⟨risk, hrisk.trans hget, hascii⟩

/-- The risks that a report can have. -/
def reportRisks : List String := ["CRITICAL", "HIGH", "MEDIUM", "LOW"]

theorem ascii_of_mem_reportRisks {risk : String} (h : risk ∈ reportRisks) :
    ∀ c ∈ risk.toList, c.toNat < 128 := by
  have hrisks : ∀ risk ∈ reportRisks,
      risk.toList.all (fun c => decide (c.toNat < 128)) = true := by decide
  exact fun c hc => of_decide_eq_true (List.all_eq_true.mp (hrisks risk h) c hc)

theorem band_mem_reportRisks (score : Nat) : Analyzer.band score ∈ reportRisks := by
  unfold Analyzer.band
  split_ifs <;> decide

theorem lookup_risk [UnicodeTables] [Analyzer.EntropyTest] (scan : Analyzer.Scan) :
    scan.entries.lookup "risk" = some (.str (Analyzer.band (Analyzer.analyze scan).score)) := by
  rw [← Analyzer.analyze_on_scale]
  simp only [Analyzer.Scan.entries]
  generalize Analyzer.analyze scan = report
  rfl

/-- The reports of `analyze`, at each of its exits and with whatever archive. -/
theorem asciiRisk_json [UnicodeTables] [Analyzer.EntropyTest] (outcome : Analyzer.Outcome)
    (wayback : Option Analyzer.Wayback) : AsciiRisk (outcome.json wayback) := by
  have hentries : ∃ risk ∈ reportRisks, outcome.entries.lookup "risk" = some (.str risk) := by
    cases outcome with
    | invalid | unresolved => exact ⟨"HIGH", by decide, rfl⟩
    | complete scan => exact ⟨_, band_mem_reportRisks _, lookup_risk scan⟩
  obtain ⟨risk, hmem, hlookup⟩ := hentries
  refine ⟨risk, ?_, ascii_of_mem_reportRisks hmem⟩
  cases wayback with
  | none => rw [Analyzer.Outcome.json, Json.get, hlookup, Option.getD_some]
  | some archive =>
    rw [Analyzer.Outcome.json, Json.get, Json.lookup_setEntry, if_neg (by decide), hlookup,
      Option.getD_some]

/-! ## The two verdicts -/

theorem any_pos_natCast (n : Nat) : (some (n : ℚ)).any (0 < ·) = decide (0 < n) := by
  simp

section Verdicts
variable [UnicodeTables] [JsTables] [JsNumbers] {target : String} {result summary : Json}

/-- The two defaults for a missing risk are no risk that counts. -/
theorem riskFlagged_eq {risk : String} (hascii : ∀ c ∈ risk.toList, c.toNat < 128) :
    decide (toUpperCase (toText (orValue (some (.str risk))
      (orValue (some (.str risk)) (.str "UNKNOWN")))) ∈ ["MEDIUM", "HIGH", "CRITICAL"]) =
    riskFlagged upper (.str risk) := by
  by_cases hempty : risk = ""
  · subst hempty
    have hdefault : orValue (some (.str "")) (orValue (some (.str "")) (.str "UNKNOWN")) =
        .str "UNKNOWN" := rfl
    rw [hdefault, toText, toUpperCase_eq_map (by decide), riskFlagged,
      UnicodeTables.upper_ascii "" hascii]
    decide
  · have htrue : truthy (.str risk) = true := bne_iff_ne.mpr hempty
    rw [orValue, if_pos htrue, toText, riskFlagged, UnicodeTables.upper_ascii risk hascii,
      JsTables.toUpperCase_ascii risk hascii]

/-- What the page finds of a completed target is what the backend has found. -/
theorem verdict_completed (hrisk : AsciiRisk result)
    (h : summarizeBulkResult upper target result = .ok summary) :
    bulkIsFailed summary = false ∧ bulkIsVulnerable summary = flagged (some summary) := by
  obtain ⟨entries, confirmed, possible, risk, confirmedCount, possibleCount, rfl, hconfirmed,
    hpossible, hget, hstatus, hriskEntry, hvulnerable, hconfirmedCount, hpossibleCount, herror,
    hresult⟩ := summarizeBulkResult_entries h
  obtain ⟨risk, hget', hascii⟩ := hrisk
  cases hget.symm.trans hget'
  have hfailed : bulkIsFailed (.obj entries) = false := by
    have htext : toText (orValue (some (.str "completed")) (.str "")) = "completed" := rfl
    rw [bulkIsFailed, field, hstatus, htext, toLowerCase_eq_map (by decide), field, herror]
    decide
  have hself : resultOf (.obj entries) = .obj entries := by rw [resultOf, field, hresult, orValue]
  have hpage : bulkIsVulnerable (.obj entries) =
      (decide (0 < confirmedCount) || decide (0 < possibleCount) ||
        riskFlagged upper (.str risk)) := by
    simp only [bulkIsVulnerable, hfailed, Bool.false_eq_true, if_false, hself, countOf, field,
      hconfirmedCount, hpossibleCount, nullishOr, toNumber, bulkGetRisk, hriskEntry,
      riskFlagged_eq hascii, Int.cast_natCast, any_pos_natCast]
  have hbackend : flagged (some (.obj entries)) =
      (confirmed.truthy || possible.truthy || riskFlagged upper (.str risk)) := by
    have hne : (Json.obj entries).truthy = true := by
      cases entries with
      | nil => cases hstatus
      | cons => rfl
    simp only [flagged, hne, Json.get, hvulnerable, Option.getD_some, Bool.true_and]
    rfl
  exact ⟨hfailed, by
    rw [hpage, hbackend, Json.truthy_of_len hconfirmed, Json.truthy_of_len hpossible]⟩

omit [UnicodeTables] in
/-- A failed target is not vulnerable to either. -/
theorem verdict_failed (target error : String) :
    bulkIsFailed (failedSummary target error) = true ∧
      bulkIsVulnerable (failedSummary target error) =
        flagged (some (failedSummary target error)) := by
  have hfailed : bulkIsFailed (failedSummary target error) = true := by
    have htext : toText (orValue (field (failedSummary target error) "status") (.str "")) =
        "failed" := rfl
    rw [bulkIsFailed, htext, toLowerCase_eq_map (by decide)]
    exact Bool.or_eq_true_iff.mpr (.inl (by decide))
  exact ⟨hfailed, not_vulnerable_of_failed hfailed⟩

end Verdicts

/-! ## The job -/

section Job
variable {cfg : Config} {scan : Bulk.Scan} {s : BulkState}

theorem risk_of_afterAnalysis {result : Json} {archive : Bool}
    (h : afterAnalysis cfg scan = .ok (result, archive)) :
    ∃ report, scan.effects.analysis = .ok report ∧
      result.get "risk" (.str "UNKNOWN") = report.get "risk" (.str "UNKNOWN") := by
  obtain ⟨report, hreport, h⟩ := bind_eq_ok.mp h
  obtain ⟨profiled, hprofiled, h⟩ := bind_eq_ok.mp h
  have hsame : result = profiled := by
    split at h
    · obtain ⟨_, -, h⟩ := bind_eq_ok.mp h
      obtain ⟨_, -, h⟩ := bind_eq_ok.mp h
      obtain ⟨_, -, h⟩ := bind_eq_ok.mp h
      exact (Prod.mk.inj (Except.ok.inj h)).1.symm
    · exact (Prod.mk.inj (Except.ok.inj h)).1.symm
  exact ⟨report, hreport, hsame ▸ Json.get_setItem_of_ne hprofiled (by decide)⟩

/-- What is summarized of a scan has the risk of its report. -/
theorem risk_of_outcome {result summary : Json} (h : outcome cfg scan = .ok (result, summary)) :
    ∃ report, scan.effects.analysis = .ok report ∧
      summarizeBulkResult cfg.upper scan.target result = .ok summary ∧
      result.get "risk" (.str "UNKNOWN") = report.get "risk" (.str "UNKNOWN") := by
  obtain ⟨saved, hsaved, h⟩ := bind_eq_ok.mp h
  obtain ⟨_, -, h⟩ := bind_eq_ok.mp h
  obtain ⟨kept, hkept, h⟩ := bind_eq_ok.mp h
  obtain ⟨_, -, h⟩ := bind_eq_ok.mp h
  obtain ⟨_, hsummary, h⟩ := bind_eq_ok.mp h
  cases h
  obtain ⟨⟨analyzed, archive⟩, hafter, hsaved⟩ := bind_eq_ok.mp hsaved
  obtain ⟨report, hreport, hrisk⟩ := risk_of_afterAnalysis hafter
  refine ⟨report, hreport, hsummary, (Json.get_setItem_of_ne hkept (by decide)).trans ?_⟩
  rw [← hrisk]
  cases archive with
  | true => exact Json.get_setItem_of_ne hsaved (by decide)
  | false => rw [Except.ok.inj hsaved]

/-- A class of the page has as many entries of `results` as a class of the backend has items. -/
theorem countP_results (C : Consistent cfg s) {p : Json → Bool} {q : Option Json → Bool}
    (hrecord : ∀ scan ∈ cfg.scans, p (recordOf cfg scan) = q (some (recordOf cfg scan)))
    (hnone : q none = false) (hrunning : ∀ scan, q (some (runningItem scan)) = false) :
    s.job.results.countP p = s.job.items.countP q := by
  rw [C.ledger.results.countP_eq, List.countP_filterMap]
  refine List.countP_congr fun item hitem => ?_
  obtain ⟨i, hi⟩ := List.mem_iff_getElem?.mp hitem
  obtain ⟨hlt, -⟩ := List.getElem?_eq_some_iff.mp hi
  have hscan : cfg.scans[i]? = some _ := List.getElem?_eq_getElem (C.tracks.items ▸ hlt)
  obtain ⟨task, htask⟩ := C.tracks.task_of_scan hscan
  cases hi.symm.trans (C.tracks.item i _ task hscan htask)
  cases task with
  | waiting | skipped => rw [itemOf, hnone]; rfl
  | analyzing | archiving | raised => rw [itemOf, hrunning]; rfl
  | recorded =>
    rw [itemOf, finishedItem_recordOf, ← hrecord _ (List.mem_of_getElem? hscan), Option.map_some,
      Option.getD_some]

variable [UnicodeTables] [JsTables] [JsNumbers]

/-- The page and the backend agree on what is recorded of a scan. -/
theorem verdict_recordOf (hupper : cfg.upper = upper)
    (hrisk : Returns AsciiRisk scan.effects.analysis) :
    bulkIsFailed (recordOf cfg scan) = statusIn ["failed"] (some (recordOf cfg scan)) ∧
      bulkIsVulnerable (recordOf cfg scan) = flagged (some (recordOf cfg scan)) := by
  unfold recordOf
  cases ho : outcome cfg scan with
  | ok r =>
    obtain ⟨result, summary⟩ := r
    obtain ⟨report, hreport, hsummary, hsame⟩ := risk_of_outcome ho
    rw [hupper] at hsummary
    obtain ⟨hfailed, hvulnerable⟩ := verdict_completed ((hrisk report hreport).congr hsame) hsummary
    refine ⟨hfailed.trans ?_, hvulnerable⟩
    rw [statusIn_of_hasStatus (summarizeBulkResult_completed summary hsummary)]
    rfl
  | error e => exact verdict_failed scan.target e.message

/-- The classes of the page are those of the counters. -/
structure SplitsResults (job : BulkJob) : Prop where
  one : ∀ item ∈ job.results,
    [bulkIsFailed item, bulkIsVulnerable item, bulkIsSafe item].count true = 1
  split : (bulkFilteredResults .failed job.results ++
    (bulkFilteredResults .vulnerable job.results ++
      bulkFilteredResults .safe job.results)).Perm job.results
  failed : (bulkFilteredResults .failed job.results).length = job.failed
  vulnerable : (bulkFilteredResults .vulnerable job.results).length = job.vulnerableTargets
  rest : (bulkFilteredResults .safe job.results).length + job.failed + job.vulnerableTargets =
    job.results.length

theorem splitsResults_of_consistent (C : Consistent cfg s) (hupper : cfg.upper = upper)
    (hreports : ∀ scan ∈ cfg.scans, Returns AsciiRisk scan.effects.analysis) :
    SplitsResults s.job := by
  have hfailed : (bulkFilteredResults .failed s.job.results).length = s.job.failed := by
    rw [bulkFilteredResults, ← List.countP_eq_length_filter, C.ledger.counted.2.1]
    refine countP_results C (fun scan hscan => ?_) rfl fun _ => rfl
    exact (verdict_recordOf hupper (hreports scan hscan)).1
  have hvulnerable :
      (bulkFilteredResults .vulnerable s.job.results).length = s.job.vulnerableTargets := by
    rw [bulkFilteredResults, ← List.countP_eq_length_filter, C.ledger.counted.2.2]
    refine countP_results C (fun scan hscan => ?_) rfl fun _ => rfl
    exact (verdict_recordOf hupper (hreports scan hscan)).2
  have hperm := filters_perm s.job.results
  refine ⟨fun item _ => one_class item, hperm, hfailed, hvulnerable, ?_⟩
  have hlength := hperm.length_eq
  rw [List.length_append, List.length_append] at hlength
  omega

end Job

/-- In every state of a run that an accepted request starts, the page splits the results as the
backend has counted them. -/
theorem results_split [UnicodeTables] [JsTables] [JsNumbers] {data : BulkScanRequest}
    {userId : Int} {targets : List String} {job : BulkJob} {scans : List Bulk.Scan}
    {ls : List Label} {s : BulkState}
    (hstart : bulkScanStart lower data userId = .ok (targets, job))
    (hscans : scans.map (·.target) = targets)
    (hreports : ∀ scan ∈ scans, Returns AsciiRisk scan.effects.analysis)
    (hrun : exec (BulkState.step (requestConfig lower upper data userId scans))
      (.start (requestConfig lower upper data userId scans) job) ls = some s) :
    SplitsResults s.job :=
  splitsResults_of_consistent (consistent_run (bulkScanStart_ok hstart hscans).1 hrun) rfl hreports

/-- A request for a vulnerable target, one that cannot be reached and a safe one. -/
def mixedRequest : BulkScanRequest := ⟨["a.example,b.example", "c.example"], "quick", 3, false⟩

def mixedScans : List Bulk.Scan :=
  [⟨"a.example", ⟨.ok (.obj [("risk", .str "LOW"), ("possible_issues", .arr [.obj []])]),
     .ok .null, .ok 1, .ok ()⟩⟩,
   ⟨"b.example", ⟨.error ⟨"timed out"⟩, .ok .null, .ok 2, .ok ()⟩⟩,
   ⟨"c.example", ⟨.ok (.obj [("risk", .str "LOW")]), .ok .null, .ok 3, .ok ()⟩⟩]

theorem results_split_mixed :
    letI := asciiTables
    letI := asciiJsTables
    letI := noNumbers
    ∃ s, exec (BulkState.step (requestConfig lower upper mixedRequest 1 mixedScans))
      (.start (requestConfig lower upper mixedRequest 1 mixedScans)
        (queuedJob "quick" (mixedScans.map (·.target)) 3 false 1))
      [.launch, .pass 0, .pass 1, .pass 2, .analyzed 1, .analyzed 0, .analyzed 2] = some s ∧
      (s.job.failed, s.job.vulnerableTargets, s.job.results.length) = (1, 1, 3) ∧
      SplitsResults s.job := by
  let _ := asciiTables
  let _ := asciiJsTables
  let _ := noNumbers
  have hstart : bulkScanStart lower mixedRequest 1 = .ok (mixedScans.map (·.target),
      queuedJob "quick" (mixedScans.map (·.target)) 3 false 1) := by
    have htargets : Bulk.normalizeBulkTargets lower mixedRequest.targets =
        mixedScans.map (·.target) := by decide +kernel
    have hprofile : requestProfile lower mixedRequest = "quick" := by decide +kernel
    simp only [bulkScanStart, htargets, hprofile]
    rfl
  have hreports : ∀ scan ∈ mixedScans, Returns AsciiRisk scan.effects.analysis := by
    have hlow := ascii_of_mem_reportRisks (show "LOW" ∈ reportRisks by decide)
    intro scan hscan report hreport
    simp only [mixedScans, List.mem_cons, List.not_mem_nil, or_false] at hscan
    obtain rfl | rfl | rfl := hscan
    · cases hreport
      exact ⟨"LOW", rfl, hlow⟩
    · cases hreport
    · cases hreport
      exact ⟨"LOW", rfl, hlow⟩
  obtain ⟨s, hs⟩ : ∃ s, exec (BulkState.step (requestConfig lower upper mixedRequest 1 mixedScans))
      (.start (requestConfig lower upper mixedRequest 1 mixedScans)
        (queuedJob "quick" (mixedScans.map (·.target)) 3 false 1))
      [.launch, .pass 0, .pass 1, .pass 2, .analyzed 1, .analyzed 0, .analyzed 2] = some s :=
    ⟨_, rfl⟩
  have hcounts := congrArg (Option.map fun s : BulkState =>
    (s.job.failed, s.job.vulnerableTargets, s.job.results.length)) hs
  refine ⟨s, hs, ?_, results_split hstart rfl hreports hs⟩
  exact (Option.some.inj hcounts).symm

end ThreatScanner.Frontend
