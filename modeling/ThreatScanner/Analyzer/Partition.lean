import ThreatScanner.Analyzer.Enterprise
import ThreatScanner.Library.Heap

/-!
# `separate_results` on dictionaries

`separate_results` builds a new dictionary for each check and finding, drops those that repeat a
title, severity and evidence, writes a status into each of the others and puts it into one of five
lists. Here this happens on a heap, where the entries of the lists are references, so that it can
be said which dictionaries are written to. What the five lists hold is what `separateResults`
computes.
-/

namespace ThreatScanner.Analyzer

/-- A dictionary of one of the lists, with the keys that are read or set. -/
structure ItemDict where
  title : Option String := none
  name : Option String := none
  severity : Option String := none
  category : Option String := none
  description : Option String := none
  impact : Option String := none
  evidence : Option String := none
  fix : Option String := none
  confidence : Option String := none
  evidenceType : Option String := none
  status : Option String := none
  source : Option String := none
  affectedUrl : Option String := none
  url : Option String := none
  fixLocation : Option String := none
  path : Option String := none
  endpoint : Option String := none
  parameter : Option String := none
  originalUrl : Option String := none
deriving DecidableEq

instance : Inhabited ItemDict := ⟨{}⟩

namespace ItemDict

/-- What is read of an entry of `vulnerability_checks`. -/
def check (item : ItemDict) : VulnCheck where
  name := item.name
  severity := item.severity
  category := item.category
  evidence := item.evidence
  impact := item.impact
  fix := item.fix
  confidence := item.confidence
  evidenceType := item.evidenceType
  affectedUrl := item.affectedUrl
  fixLocation := item.fixLocation
  status := item.status
  url := item.url
  path := item.path
  endpoint := item.endpoint
  parameter := item.parameter
  originalUrl := item.originalUrl

/-- What is read of an entry of `findings`. -/
def finding (item : ItemDict) : Finding where
  title := item.title
  severity := item.severity
  category := item.category
  description := item.description
  evidence := item.evidence
  fix := item.fix
  confidence := item.confidence
  evidenceType := item.evidenceType
  affectedUrl := item.affectedUrl
  fixLocation := item.fixLocation
  status := item.status
  url := item.url
  path := item.path
  endpoint := item.endpoint
  parameter := item.parameter
  originalUrl := item.originalUrl

/-- The dictionary of an item of the combined list. -/
def ofRow (item : Row) : ItemDict where
  title := item.title
  severity := some item.severity
  category := some item.category
  description := item.description
  evidence := item.evidence
  fix := item.fix
  confidence := some item.confidence
  evidenceType := some item.evidenceType
  status := some item.status
  source := some item.source
  affectedUrl := item.affectedUrl
  fixLocation := item.fixLocation
  parameter := item.parameter
  originalUrl := item.originalUrl

/-- What is read of an item of the combined list, with the defaults of the reads. -/
def row (item : ItemDict) : Row where
  title := item.title
  severity := item.severity.getD "INFO"
  category := item.category.getD ""
  description := item.description
  evidence := item.evidence
  fix := item.fix
  confidence := item.confidence.getD "LOW"
  evidenceType := item.evidenceType.getD ""
  status := item.status.getD "INFO"
  source := item.source.getD ""
  affectedUrl := item.affectedUrl
  fixLocation := item.fixLocation
  parameter := item.parameter
  originalUrl := item.originalUrl

/-- `item["status"] = status`. -/
def setStatus (item : ItemDict) (status : String) : ItemDict := { item with status := some status }

@[simp] theorem row_ofRow (item : Row) : (ofRow item).row = item := rfl

@[simp] theorem row_setStatus (item : ItemDict) (status : String) :
    (item.setStatus status).row = { item.row with status } := rfl

end ItemDict

/-- The five lists of references. -/
structure SeparatedRefs where
  confirmedVulnerabilities : List Ref := []
  possibleIssues : List Ref := []
  hardeningIssues : List Ref := []
  attackSurface : List Ref := []
  informationalFindings : List Ref := []

namespace SeparatedRefs

/-- The list of a section. -/
def list (out : SeparatedRefs) : SectionKind → List Ref
  | .confirmed => out.confirmedVulnerabilities
  | .possible => out.possibleIssues
  | .hardening => out.hardeningIssues
  | .attackSurface => out.attackSurface
  | .informational => out.informationalFindings

/-- Appending to the list of a section. -/
def push (out : SeparatedRefs) (kind : SectionKind) (item : Ref) : SeparatedRefs :=
  match kind with
  | .confirmed => { out with confirmedVulnerabilities := out.confirmedVulnerabilities ++ [item] }
  | .possible => { out with possibleIssues := out.possibleIssues ++ [item] }
  | .hardening => { out with hardeningIssues := out.hardeningIssues ++ [item] }
  | .attackSurface => { out with attackSurface := out.attackSurface ++ [item] }
  | .informational => { out with informationalFindings := out.informationalFindings ++ [item] }

theorem list_push (out : SeparatedRefs) (kind kind' : SectionKind) (item : Ref) :
    (out.push kind item).list kind' = out.list kind' ++ if kind = kind' then [item] else [] := by
  cases kind <;> cases kind' <;> simp [push, list]

/-- The five lists put together. -/
def all (out : SeparatedRefs) : List Ref :=
  out.confirmedVulnerabilities ++ out.possibleIssues ++ out.hardeningIssues ++
    out.attackSurface ++ out.informationalFindings

theorem all_eq (out : SeparatedRefs) : out.all = SectionKind.all.flatMap out.list := by
  simp only [all, SectionKind.all, List.flatMap_cons, List.flatMap_nil, List.append_nil, list,
    List.append_assoc]

variable [UnicodeTables]

/-- The body of the loop of `separate_results`: a write to the item and an `append`. -/
def add (state : SeparatedRefs × Heap ItemDict) (item : Ref) : SeparatedRefs × Heap ItemDict :=
  let (out, heap) := state
  let row := (heap.read item).row
  let title := lower (showOption row.title)
  let category := lower row.category
  let sev := upper row.severity
  let status := upper row.status
  if row.isConfirmed then
    ({ out with confirmedVulnerabilities := out.confirmedVulnerabilities ++ [item] },
      heap.modify item (·.setStatus "CONFIRMED"))
  else if (hardeningCategories.any fun x => contains category x) ||
      contains title "missing security header" then
    ({ out with hardeningIssues := out.hardeningIssues ++ [item] },
      heap.modify item (·.setStatus "HARDENING"))
  else if attackSurfaceCategories.any fun x => contains category x then
    ({ out with attackSurface := out.attackSurface ++ [item] },
      heap.modify item (·.setStatus "INFO"))
  else if status = "POSSIBLE" ∧ sev ∈ ["CRITICAL", "HIGH", "MEDIUM"] then
    ({ out with possibleIssues := out.possibleIssues ++ [item] },
      heap.modify item (·.setStatus "POSSIBLE"))
  else
    ({ out with informationalFindings := out.informationalFindings ++ [item] },
      heap.modify item (·.setStatus "INFO"))

end SeparatedRefs

section Run
variable [UnicodeTables]

/-- `combined` after the two loops that build it, before `dedupe_dicts`. -/
def buildCombined (heap : Heap ItemDict) (findings vulnerabilityChecks : List Ref) :
    List Ref × Heap ItemDict :=
  let (checked, heap) := heap.allocEach (fun item => .ofRow item.check.row) vulnerabilityChecks
  let (found, heap) := heap.allocEach (fun item => .ofRow item.finding.row) findings
  (checked ++ found, heap)

/-- `dedupe_dicts(combined, ["title", "severity", "evidence"])`. -/
def dedupeCombined (built : List Ref × Heap ItemDict) : List Ref × Heap ItemDict :=
  (distinctBy (fun item => (built.2.read item).row.key) built.1, built.2)

/-- `separate_results` on references to dictionaries. -/
def separateResultsOn (heap : Heap ItemDict) (findings vulnerabilityChecks : List Ref) :
    SeparatedRefs × Heap ItemDict :=
  let (combined, heap) := dedupeCombined (buildCombined heap findings vulnerabilityChecks)
  combined.foldl SeparatedRefs.add ({}, heap)

/-! ## The loop -/

/-- A dictionary after its turn in the loop. -/
def ItemDict.labelled (item : ItemDict) : ItemDict := item.setStatus item.row.kind.label

theorem SeparatedRefs.add_eq (out : SeparatedRefs) (heap : Heap ItemDict) (item : Ref) :
    add (out, heap) item =
      (out.push (heap.read item).row.kind item, heap.modify item ItemDict.labelled) := by
  have hchain := (heap.read item).row.kind_chain fun kind =>
    (out.push kind item, heap.modify item (·.setStatus kind.label))
  refine Eq.trans hchain (congrArg (Prod.mk _) (Heap.modify_congr rfl))

/-- Each dictionary is put where it belongs by what it held before the loop. -/
theorem foldl_add {items : List Ref} (out : SeparatedRefs) (heap : Heap ItemDict)
    (hnodup : items.Nodup) :
    (∀ kind, (items.foldl SeparatedRefs.add (out, heap)).1.list kind = out.list kind ++
      items.filter fun item => (heap.read item).row.kind = kind) ∧
    (items.foldl SeparatedRefs.add (out, heap)).2 =
      items.foldl (fun heap item => heap.modify item ItemDict.labelled) heap := by
  induction items generalizing out heap with
  | nil => exact ⟨fun kind => (List.append_nil _).symm, rfl⟩
  | cons item items ih =>
    obtain ⟨hitem, hnodup⟩ := List.nodup_cons.mp hnodup
    rw [List.foldl_cons, SeparatedRefs.add_eq, List.foldl_cons]
    obtain ⟨hlists, hheap⟩ := ih (out.push (heap.read item).row.kind item)
      (heap.modify item ItemDict.labelled) hnodup
    refine ⟨fun kind => ?_, hheap⟩
    have hrest : (items.filter fun other =>
        ((heap.modify item ItemDict.labelled).read other).row.kind = kind) =
        items.filter fun other => (heap.read other).row.kind = kind :=
      List.filter_congr fun other hother => by
        have hne : other ≠ item := fun heq => hitem (heq ▸ hother)
        rw [Heap.read_modify_ne _ hne]
    rw [hlists, hrest, SeparatedRefs.list_push, List.append_assoc, List.filter_cons]
    by_cases h : (heap.read item).row.kind = kind <;> simp [h]

theorem list_foldl_add {items : List Ref} (heap : Heap ItemDict) (hnodup : items.Nodup)
    (kind : SectionKind) :
    (items.foldl SeparatedRefs.add ({}, heap)).1.list kind =
      items.filter fun item => (heap.read item).row.kind = kind := by
  rw [(foldl_add {} heap hnodup).1]
  cases kind <;> rfl

/-! ## The run -/

/-- The two loops build one dictionary for each check and finding, apart from the inputs. -/
structure Combined (heap : Heap ItemDict) (findings vulnerabilityChecks combined : List Ref)
    (built : Heap ItemDict) : Prop where
  keeps : heap.Keeps built
  fresh : ∀ item ∈ combined, heap.size ≤ item ∧ item < built.size
  nodup : combined.Nodup
  rows : combined.map (fun item => (built.read item).row) =
    vulnerabilityChecks.map (fun item => (heap.read item).check.row) ++
      findings.map fun item => (heap.read item).finding.row

theorem combined_of_built {heap heap₁ heap₂ : Heap ItemDict}
    {findings vulnerabilityChecks checked found : List Ref}
    (hfindings : ∀ item ∈ findings, item < heap.size)
    (hchecked : heap.BuiltFrom (fun item => .ofRow item.check.row) vulnerabilityChecks checked
      heap₁)
    (hfound : heap₁.BuiltFrom (fun item => .ofRow item.finding.row) findings found heap₂) :
    Combined heap findings vulnerabilityChecks (checked ++ found) heap₂ := by
  obtain ⟨hkeeps₁, hfresh₁, hnodup₁, hreads₁⟩ := hchecked
  obtain ⟨hkeeps₂, hfresh₂, hnodup₂, hreads₂⟩ := hfound
  have hsize := hkeeps₁.1
  have hsize' := hkeeps₂.1
  refine ⟨hkeeps₁.trans hkeeps₂, ?_, ?_, ?_⟩
  · intro item hitem
    rcases List.mem_append.mp hitem with hitem | hitem
    · exact ⟨(hfresh₁ item hitem).1, (hfresh₁ item hitem).2.trans_le hsize'⟩
    · exact ⟨hsize.trans (hfresh₂ item hitem).1, (hfresh₂ item hitem).2⟩
  · refine List.nodup_append.mpr ⟨hnodup₁, hnodup₂, fun item hitem other hother heq => ?_⟩
    have hlt := (hfresh₁ item hitem).2
    exact absurd (heq ▸ (hfresh₂ other hother).1) (Nat.not_le.mpr hlt)
  · have hold : checked.map heap₂.read = checked.map heap₁.read :=
      List.map_congr_left fun item hitem => hkeeps₂.2 item (hfresh₁ item hitem).2
    have hread : (findings.map fun item => ItemDict.ofRow (heap₁.read item).finding.row) =
        findings.map fun item => ItemDict.ofRow (heap.read item).finding.row :=
      List.map_congr_left fun item hitem => by rw [hkeeps₁.2 item (hfindings item hitem)]
    have hbuilt := congrArg (List.map ItemDict.row)
      (congrArg₂ (· ++ ·) (hold.trans hreads₁) (hreads₂.trans hread))
    simpa only [List.map_append, List.map_map, Function.comp_def, ItemDict.row_ofRow] using hbuilt

theorem combined_buildCombined {heap : Heap ItemDict} {findings vulnerabilityChecks : List Ref}
    (hfindings : ∀ item ∈ findings, item < heap.size)
    (hchecks : ∀ item ∈ vulnerabilityChecks, item < heap.size) :
    Combined heap findings vulnerabilityChecks
      (buildCombined heap findings vulnerabilityChecks).1
      (buildCombined heap findings vulnerabilityChecks).2 := by
  have hchecked := Heap.builtFrom_allocEach (fun item : ItemDict => .ofRow item.check.row) heap
    vulnerabilityChecks hchecks
  refine combined_of_built hfindings hchecked (Heap.builtFrom_allocEach _ _ _ fun item hitem => ?_)
  exact (hfindings item hitem).trans_le hchecked.keeps.1

theorem Combined.dedupe {heap : Heap ItemDict} {findings vulnerabilityChecks : List Ref}
    {built : List Ref × Heap ItemDict}
    (h : Combined heap findings vulnerabilityChecks built.1 built.2) :
    (dedupeCombined built).1.map (fun item => ((dedupeCombined built).2.read item).row) =
      combinedRows (findings.map fun item => (heap.read item).finding)
        (vulnerabilityChecks.map fun item => (heap.read item).check) := by
  rw [combinedRows, List.map_map, List.map_map]
  exact distinctBy_map.symm.trans (congrArg (distinctBy Row.key) h.rows)

/-- What `separate_results` leaves: `combined` are the dictionaries it built and kept, `built` is
the heap before its loop and `after` the heap after it. -/
structure Partitioned (heap built after : Heap ItemDict) (combined : List Ref)
    (out : SeparatedRefs) : Prop where
  complete : out.all.Perm combined
  apart : out.all.Nodup
  ordered : ∀ kind, (out.list kind).Sublist combined
  confirmed : ∀ item, item ∈ out.confirmedVulnerabilities ↔
    item ∈ combined ∧ (built.read item).row.isConfirmed
  labelled : ∀ kind, ∀ item ∈ out.list kind,
    after.read item = (built.read item).setStatus kind.label
  inputs : ∀ item < heap.size, after.read item = heap.read item

theorem Row.kind_confirmed {item : Row} : item.kind = .confirmed ↔ item.isConfirmed := by
  simp only [Row.kind]
  split_ifs <;> simp_all

theorem partitioned_foldl {heap built : Heap ItemDict} {combined : List Ref}
    (hkeeps : heap.Keeps built) (hfresh : ∀ item ∈ combined, heap.size ≤ item ∧ item < built.size)
    (hnodup : combined.Nodup) :
    Partitioned heap built (combined.foldl SeparatedRefs.add ({}, built)).2 combined
      (combined.foldl SeparatedRefs.add ({}, built)).1 := by
  have hheap := (foldl_add {} built hnodup).2
  have hlist := list_foldl_add built hnodup
  have hread := Heap.read_foldl_modify ItemDict.labelled hnodup fun item hitem =>
    (hfresh item hitem).2
  have hperm : (combined.foldl SeparatedRefs.add ({}, built)).1.all.Perm combined := by
    rw [SeparatedRefs.all_eq, List.flatMap_congr fun kind _ => hlist kind]
    exact flatMap_filter_perm (by decide) fun item _ => SectionKind.mem_all _
  refine ⟨hperm, hperm.nodup_iff.mpr hnodup, fun kind => ?_, fun item => ?_,
    fun kind item hitem => ?_, fun item hitem => ?_⟩
  · rw [hlist]
    exact List.filter_sublist
  · change item ∈ SeparatedRefs.list _ .confirmed ↔ _
    rw [hlist, List.mem_filter, decide_eq_true_eq, Row.kind_confirmed]
  · rw [hlist, List.mem_filter, decide_eq_true_eq] at hitem
    rw [hheap, hread, if_pos hitem.1, ItemDict.labelled, hitem.2]
  · have hnot : item ∉ combined := fun hmem => absurd (hfresh item hmem).1 (Nat.not_le.mpr hitem)
    rw [hheap, hread, if_neg hnot, hkeeps.2 item hitem]

/-- The dictionaries that `separate_results` builds for the checks and findings and keeps, one for
each title, severity and evidence, are each put into one list; the inputs are not written to. -/
theorem separate_results_partition (heap : Heap ItemDict)
    (findings vulnerabilityChecks : List (Fin heap.size)) :
    let kept := dedupeCombined (buildCombined heap (findings.map Fin.val)
      (vulnerabilityChecks.map Fin.val))
    let run := separateResultsOn heap (findings.map Fin.val) (vulnerabilityChecks.map Fin.val)
    let findingDicts := findings.map fun item : Fin heap.size => (heap.read item).finding
    let checkDicts := vulnerabilityChecks.map fun item : Fin heap.size => (heap.read item).check
    kept.1.map (fun item => (kept.2.read item).row) = combinedRows findingDicts checkDicts ∧
      Partitioned heap kept.2 run.2 kept.1 run.1 ∧
      ∀ kind, (run.1.list kind).map (fun item => (run.2.read item).row) =
        (separateResults findingDicts checkDicts).list kind := by
  intro kept run findingDicts checkDicts
  have hvalid : ∀ items : List (Fin heap.size), ∀ item ∈ items.map Fin.val, item < heap.size := by
    intro items item hitem
    obtain ⟨place, _, rfl⟩ := List.mem_map.mp hitem
    exact place.isLt
  have hbuilt := combined_buildCombined (hvalid findings) (hvalid vulnerabilityChecks)
  have hrows : kept.1.map (fun item => (kept.2.read item).row) =
      combinedRows findingDicts checkDicts := by
    have hdedupe := hbuilt.dedupe
    rw [List.map_map, List.map_map] at hdedupe
    exact hdedupe
  have hsublist : kept.1.Sublist (buildCombined heap (findings.map Fin.val)
      (vulnerabilityChecks.map Fin.val)).1 := distinctBy_sublist
  have hnodup := hbuilt.nodup.sublist hsublist
  have hpart : Partitioned heap kept.2 run.2 kept.1 run.1 :=
    partitioned_foldl hbuilt.keeps (fun item hitem => hbuilt.fresh item (hsublist.subset hitem))
      hnodup
  refine ⟨hrows, hpart, fun kind => ?_⟩
  have hlist : run.1.list kind = kept.1.filter fun item => (kept.2.read item).row.kind = kind :=
    list_foldl_add kept.2 hnodup kind
  have hlabelled : (run.1.list kind).map (fun item => (run.2.read item).row) =
      (run.1.list kind).map fun item =>
        { (kept.2.read item).row with status := kind.label } :=
    List.map_congr_left fun item hitem => by
      rw [hpart.labelled kind item hitem, ItemDict.row_setStatus]
  rw [hlabelled, list_separateResults, ← hrows, List.filter_map, List.map_map, hlist]
  rfl

end Run

end ThreatScanner.Analyzer
