import Mathlib.Data.List.Dedup
import ThreatScanner.Analyzer.CveSummary

/-!
# Which technologies are looked up

`check_cves` turns the technologies into keywords, puts these into a set and looks up the first four
that an iteration over the set gives. The order of the iteration changes from one process to the
next.
-/

namespace ThreatScanner.Analyzer

/-- An order in which a process iterates over the set of some items. -/
structure SetOrder (elements : List String) where
  items : List String
  nodup : items.Nodup
  mem : ∀ item, item ∈ items ↔ item ∈ elements

/-- `check_cves` looks up at most four keywords. -/
def keywordLimit : Nat := 4

variable [UnicodeTables]

/-- The body of the loop over the technologies. -/
def cveKeyword (tech : String) : Option String :=
  let t := lower tech
  if contains t "apache" then some "Apache HTTP Server"
  else if contains t "nginx" then some "nginx"
  else if contains t "wordpress" then some "WordPress"
  else if contains t "php" then some "PHP"
  else if contains t "express" then some "Express.js"
  else if contains t "asp.net" then some "ASP.NET"
  else if contains t "google web server" then none
  else some tech

/-- `keywords`, as the loop leaves it. -/
def cveKeywords (technologies : List String) : List String := technologies.filterMap cveKeyword

variable [JsonText]

theorem fetched_of_collectRecords {items : List Json} {record : CveRecord}
    (h : record ∈ collectRecords items) : ∃ item, cveRecord item = .ok record := by
  induction items with
  | nil => cases h
  | cons item rest ih =>
    rw [collectRecords] at h
    split at h
    · cases h
    · next first hfirst =>
      rcases List.mem_cons.mp h with rfl | h
      · exact ⟨item, hfirst⟩
      · exact ih h

theorem fetched_of_mem {answer : Option NvdResponse} {record : CveRecord}
    (h : record ∈ fetchCvesForKeyword answer) : ∃ item, cveRecord item = .ok record := by
  unfold fetchCvesForKeyword at h
  split at h
  · cases h
  · split at h
    · cases h
    · split at h
      · cases h
      · unfold recordsOf at h
        split at h
        · cases h
        · exact fetched_of_collectRecords h

/-- What `fetch_cves_for_keyword` makes of an answer. -/
def fetchedCves (answer : Option NvdResponse) : List FetchedCve :=
  (fetchCvesForKeyword answer).attach.map fun record => ⟨record.val, fetched_of_mem record.property⟩

/-- An entry of what `check_cves` returns. -/
structure CheckedTechnology where
  technology : String
  cves : List FetchedCve
  intelligenceSummary : CveSummary

/-- The body of the loop over the keywords and the answers to them. -/
def checkKeyword (nvd : String → Option NvdResponse) (keyword : String) :
    Except PyError CheckedTechnology := do
  let cves := fetchedCves (nvd keyword)
  let summary ← buildCveIntelligenceSummary [⟨keyword, cves⟩]
  .ok ⟨keyword, cves, summary⟩

/-- `check_cves`, `nvd` being the answers to the requests. -/
def checkCves (nvd : String → Option NvdResponse) (technologies : List String)
    (order : SetOrder (cveKeywords technologies)) : Except PyError (List CheckedTechnology) :=
  if technologies = [] then .ok []
  else
    let keywords := order.items.take keywordLimit
    if keywords = [] then .ok [] else keywords.mapM (checkKeyword nvd)

/-- Two runs look up the same technologies: both raise, or their groups are for the same ones. -/
def SameTechnologies (x y : Except PyError (List CheckedTechnology)) : Prop :=
  match x, y with
  | .ok groups, .ok groups' =>
    ∀ technology, technology ∈ groups.map (·.technology) ↔
      technology ∈ groups'.map (·.technology)
  | .error _, .error _ => True
  | _, _ => False

section Order
variable {nvd : String → Option NvdResponse} {technologies : List String}
  {order order' : SetOrder (cveKeywords technologies)}

/-- The special cases of the empty lists are those of the loop. -/
theorem checkCves_eq : checkCves nvd technologies order =
    (order.items.take keywordLimit).mapM (checkKeyword nvd) := by
  unfold checkCves
  split
  · next hnil =>
    have hitems : order.items = [] := by
      refine List.eq_nil_iff_forall_not_mem.mpr fun item hitem => ?_
      have hmem := (order.mem item).mp hitem
      rw [cveKeywords, hnil] at hmem
      cases hmem
    rw [hitems]
    rfl
  · dsimp only
    split
    · next hkeywords =>
      rw [hkeywords]
      rfl
    · rfl

/-- The groups are for the keywords, in their order. -/
theorem technologies_of_mapM {keywords : List String} {groups : List CheckedTechnology}
    (h : keywords.mapM (checkKeyword nvd) = .ok groups) : groups.map (·.technology) = keywords := by
  induction keywords generalizing groups with
  | nil =>
    cases h
    rfl
  | cons keyword keywords ih =>
    simp only [List.mapM_cons, bind_eq_ok] at h
    obtain ⟨group, hgroup, rest, hrest, hgroups⟩ := h
    cases hgroups
    obtain ⟨summary, -, hgroup⟩ := bind_eq_ok.mp hgroup
    cases hgroup
    rw [List.map_cons, ih hrest]

/-- Runs over lists of the same keywords look up the same technologies. -/
theorem sameTechnologies_of_mem {keywords keywords' : List String}
    (h : ∀ keyword, keyword ∈ keywords ↔ keyword ∈ keywords') :
    SameTechnologies (keywords.mapM (checkKeyword nvd)) (keywords'.mapM (checkKeyword nvd)) := by
  have hreturns : (∃ groups, keywords.mapM (checkKeyword nvd) = .ok groups) ↔
      ∃ groups, keywords'.mapM (checkKeyword nvd) = .ok groups := by
    simp only [exists_mapM_eq_ok, h]
  cases hrun : keywords.mapM (checkKeyword nvd) with
  | error e =>
    cases hrun' : keywords'.mapM (checkKeyword nvd) with
    | error e' => trivial
    | ok groups' => simp [hrun, hrun'] at hreturns
  | ok groups =>
    cases hrun' : keywords'.mapM (checkKeyword nvd) with
    | error e' => simp [hrun, hrun'] at hreturns
    | ok groups' =>
      intro technology
      rw [technologies_of_mapM hrun, technologies_of_mapM hrun', h]

omit [UnicodeTables] [JsonText] in
theorem SetOrder.length_items {elements : List String} (order : SetOrder elements) :
    order.items.length = elements.dedup.length := by
  refine List.Perm.length_eq
    ((List.perm_ext_iff_of_nodup order.nodup (List.nodup_dedup _)).mpr fun item => ?_)
  rw [order.mem, List.mem_dedup]

/-- When nothing is found, the technologies are the keywords that are looked up. -/
theorem sameTechnologies_unanswered (h : SameTechnologies
      (checkCves (fun _ => none) technologies order)
      (checkCves (fun _ => none) technologies order')) (keyword : String) :
    keyword ∈ order.items.take keywordLimit ↔ keyword ∈ order'.items.take keywordLimit := by
  have hrun : ∀ keywords : List String,
      keywords.mapM (checkKeyword fun _ => none) = .ok (keywords.map fun keyword =>
        ⟨keyword, [], cveSummary []⟩) := fun keywords => mapM_eq_ok_map fun keyword _ => rfl
  rw [checkCves_eq, checkCves_eq, hrun, hrun] at h
  simpa [SameTechnologies, Function.comp_def] using h keyword

end Order

/-- Two orders of the keywords that differ by a rotation. -/
def SetOrder.rotated {elements : List String} (order : SetOrder elements) : SetOrder elements where
  items := order.items.rotate 1
  nodup := List.nodup_rotate.mpr order.nodup
  mem item := List.mem_rotate.trans (order.mem item)

def SetOrder.first (elements : List String) : SetOrder elements where
  items := elements.dedup
  nodup := List.nodup_dedup _
  mem _ := List.mem_dedup

/-- With more than four keywords, a rotation puts another four of them in front. -/
theorem length_le_of_independent {technologies : List String}
    (h : ∀ (nvd : String → Option NvdResponse) (order order' : SetOrder (cveKeywords technologies)),
      SameTechnologies (checkCves nvd technologies order) (checkCves nvd technologies order')) :
    (cveKeywords technologies).dedup.length ≤ 4 := by
  by_contra hmany
  have hsame := sameTechnologies_unanswered
    (h (fun _ => none) (.first _) (SetOrder.first _).rotated)
  have hnodup := List.nodup_dedup (cveKeywords technologies)
  simp only [SetOrder.rotated, SetOrder.first] at hsame
  cases hitems : (cveKeywords technologies).dedup with
  | nil => simp [hitems] at hmany
  | cons first rest =>
    rw [hitems] at hsame hnodup hmany
    have hlater : first ∈ rest := by
      have hmem := (hsame first).mp (by simp [keywordLimit])
      rw [List.rotate_cons_succ, List.rotate_zero, List.take_append_of_le_length] at hmem
      · exact List.mem_of_mem_take hmem
      · simp only [List.length_cons, keywordLimit] at hmany ⊢
        omega
    exact (List.nodup_cons.mp hnodup).1 hlater

/-- Which technologies are looked up does not depend on the order of the set exactly when there are
no more than four different keywords. -/
theorem lookups_independent_of_order_iff (technologies : List String) :
    (∀ (nvd : String → Option NvdResponse) (order order' : SetOrder (cveKeywords technologies)),
      SameTechnologies (checkCves nvd technologies order) (checkCves nvd technologies order')) ↔
      (cveKeywords technologies).dedup.length ≤ 4 := by
  constructor
  · exact length_le_of_independent
  · intro hfew nvd order order'
    rw [checkCves_eq, checkCves_eq]
    refine sameTechnologies_of_mem fun keyword => ?_
    have hall : ∀ order : SetOrder (cveKeywords technologies),
        order.items.take keywordLimit = order.items := fun order =>
      List.take_of_length_le (order.length_items.trans_le hfew)
    rw [hall, hall, order.mem, order'.mem]

omit [UnicodeTables] [JsonText] in
/-- With five keywords the order of the set decides which of them is left out. -/
theorem fifth_keyword_left_out : ¬ ∀ (_ : UnicodeTables) (_ : JsonText) (technologies : List String)
    (nvd : String → Option NvdResponse) (order order' : SetOrder (cveKeywords technologies)),
    SameTechnologies (checkCves nvd technologies order) (checkCves nvd technologies order') := by
  intro h
  let _ := asciiTables
  let _ := stringText
  have hfew := length_le_of_independent
    (h asciiTables stringText ["Cloudflare", "PHP", "WordPress", "React", "Vue.js"])
  exact absurd hfew (by decide +kernel)

end ThreatScanner.Analyzer
