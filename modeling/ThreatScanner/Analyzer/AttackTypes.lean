import ThreatScanner.Analyzer.CveSummary

/-!
# The attack types of a CVE

`classify_cve_attack_type` looks for its phrases anywhere in the text of a CVE, inside longer words
too: `rce` stands in `resource exhaustion`, a phrase of another label.
-/

namespace ThreatScanner.Analyzer

section Words
variable [UnicodeTables] {text phrase : String}

/-- The phrase occurs in the text as whole words, with no letter or digit before or after it. -/
def hasWords (text phrase : String) : Bool :=
  (List.range (text.toList.length + 1)).any fun i =>
    decide (phrase.toList <+: text.toList.drop i) &&
      !(text.toList.take i).getLast?.any isAlnum &&
      !(text.toList.drop (i + phrase.toList.length)).head?.any isAlnum

theorem hasWords_iff : hasWords text phrase = true ↔ ∃ before after,
    text.toList = before ++ phrase.toList ++ after ∧ before.getLast?.any isAlnum = false ∧
      after.head?.any isAlnum = false := by
  simp only [hasWords, List.any_eq_true, List.mem_range, Bool.and_eq_true, decide_eq_true_eq,
    Bool.not_eq_true']
  constructor
  · rintro ⟨i, hi, ⟨⟨after, hafter⟩, hbefore⟩, hnext⟩
    refine ⟨text.toList.take i, after, ?_, hbefore, ?_⟩
    · rw [List.append_assoc, hafter, List.take_append_drop]
    · rwa [← List.drop_drop, ← hafter, List.drop_left] at hnext
  · rintro ⟨before, after, htext, hbefore, hafter⟩
    refine ⟨before.length, ?_, ⟨⟨after, ?_⟩, ?_⟩, ?_⟩
    · rw [htext, List.length_append, List.length_append]
      omega
    · rw [htext, List.append_assoc, List.drop_left]
    · rwa [htext, List.append_assoc, List.take_left]
    · rwa [htext, ← List.length_append, List.drop_left]

theorem contains_of_hasWords (h : hasWords text phrase = true) : contains text phrase = true := by
  obtain ⟨before, after, htext, -, -⟩ := hasWords_iff.mp h
  exact decide_eq_true ⟨before, after, htext.symm⟩

end Words

variable [UnicodeTables] [JsonText]

/-- `combined`. -/
def attackText (description : Json) (weaknesses : List Json) : Except PyError String := do
  let text ← description.lowered
  .ok (text ++ " " ++ lower (String.intercalate " " (weaknesses.map JsonText.text)))

/-- The rules of which a phrase occurs in the text. -/
def detectedTypes (text : String) : List String :=
  (attackRules.filter fun rule => rule.2.any fun phrase => contains text phrase).map Prod.fst

/-- The labels of a text. -/
def attackLabels (text : String) : List String :=
  if detectedTypes text = [] then ["General Vulnerability"] else detectedTypes text

theorem classifyCveAttackType_eq (description : Json) (weaknesses : List Json) :
    classifyCveAttackType description weaknesses =
      (attackText description weaknesses).map attackLabels := by
  simp only [classifyCveAttackType, attackText]
  cases description.lowered <;> rfl

/-- One of the phrases of the rule occurs as whole words. -/
def Mentions (text : String) (rule : String × List String) : Prop :=
  ∃ phrase ∈ rule.2, hasWords text phrase = true

/-- `rules[0]`. -/
def rceRule : String × List String :=
  ("Remote Code Execution",
    ["remote code execution", "rce", "execute arbitrary code", "code execution"])

/-- The labels are those whose phrases the text has as whole words, the general label stands for
none of them, and the summary of a CVE with these labels counts what mentions the execution of
code. -/
structure LabelsWords (text : String) (labels : List String) : Prop where
  label : ∀ rule ∈ attackRules, rule.1 ∈ labels ↔ Mentions text rule
  general : "General Vulnerability" ∈ labels ↔ ∀ rule ∈ attackRules, ¬ Mentions text rule
  rce : ∀ (technology : String) (cve : FetchedCve) (summary : CveSummary),
    cve.intelligence.attackTypes = labels →
    buildCveIntelligenceSummary [⟨technology, [cve]⟩] = .ok summary →
    (summary.rceCount = 1 ↔ Mentions text rceRule)

variable {text : String}

omit [UnicodeTables] [JsonText] in
theorem mem_attackLabels {rule : String × List String} (h : rule ∈ attackRules) :
    rule.1 ∈ attackLabels text ↔ ∃ phrase ∈ rule.2, contains text phrase = true := by
  have hnodup : (attackRules.map Prod.fst).Nodup := by decide
  have hgeneral : ∀ rule ∈ attackRules, rule.1 ≠ "General Vulnerability" := by decide
  have hdetected : rule.1 ∈ detectedTypes text ↔
      ∃ phrase ∈ rule.2, contains text phrase = true := by
    simp only [detectedTypes, List.mem_map, List.mem_filter, List.any_eq_true]
    constructor
    · rintro ⟨other, ⟨hother, hphrase⟩, hsame⟩
      rwa [← List.inj_on_of_nodup_map hnodup hother h hsame]
    · exact fun hphrase => ⟨rule, ⟨h, hphrase⟩, rfl⟩
  rw [← hdetected, attackLabels]
  split
  · next hnil => simp [hnil, hgeneral rule h]
  · exact Iff.rfl

omit [UnicodeTables] [JsonText] in
theorem general_mem_attackLabels : "General Vulnerability" ∈ attackLabels text ↔
    ∀ rule ∈ attackRules, ¬ rule.1 ∈ attackLabels text := by
  have hgeneral : ∀ rule ∈ attackRules, rule.1 ≠ "General Vulnerability" := by decide
  have hfrom : ∀ label ∈ detectedTypes text, ∃ rule ∈ attackRules, rule.1 = label := by
    intro label hlabel
    obtain ⟨rule, hrule, rfl⟩ := List.mem_map.mp hlabel
    exact ⟨rule, (List.mem_filter.mp hrule).1, rfl⟩
  rw [attackLabels]
  split
  · refine iff_of_true List.mem_cons_self fun rule hrule hmem => ?_
    exact hgeneral rule hrule (List.mem_singleton.mp hmem)
  · next hne =>
    refine iff_of_false (fun hmem => ?_) fun hnone => ?_
    · obtain ⟨rule, hrule, hsame⟩ := hfrom _ hmem
      exact hgeneral rule hrule hsame
    · obtain ⟨label, hlabel⟩ := List.exists_mem_of_ne_nil _ hne
      obtain ⟨rule, hrule, rfl⟩ := hfrom label hlabel
      exact hnone rule hrule hlabel

/-- The summary of one CVE counts it by its labels. -/
theorem rceCount_single {technology : String} {cve : FetchedCve} {summary : CveSummary}
    (h : buildCveIntelligenceSummary [⟨technology, [cve]⟩] = .ok summary) :
    summary.rceCount = 1 ↔ "Remote Code Execution" ∈ cve.intelligence.attackTypes := by
  obtain ⟨scored, hfst, -, rfl⟩ := buildCveIntelligenceSummary_eq_ok.mp h
  obtain ⟨e, rfl, he⟩ := List.map_eq_singleton_iff.mp hfst
  simp only [cveSummary, List.countP_singleton, he, isRce, List.contains_iff_mem]
  split <;> simp_all

/-- The labels of a text are those of its words exactly when no label has its phrases inside longer
words only. -/
theorem labelsWords_iff (text : String) : LabelsWords text (attackLabels text) ↔
    ∀ rule ∈ attackRules, (∃ phrase ∈ rule.2, contains text phrase = true) →
      Mentions text rule := by
  have hwords : ∀ rule : String × List String, Mentions text rule →
      ∃ phrase ∈ rule.2, contains text phrase = true := fun rule ⟨phrase, hmem, hwords⟩ =>
    ⟨phrase, hmem, contains_of_hasWords hwords⟩
  constructor
  · intro h rule hrule hphrase
    exact (h.label rule hrule).mp ((mem_attackLabels hrule).mpr hphrase)
  · intro h
    have hlabel : ∀ rule ∈ attackRules, rule.1 ∈ attackLabels text ↔ Mentions text rule :=
      fun rule hrule => (mem_attackLabels hrule).trans ⟨h rule hrule, hwords rule⟩
    refine ⟨hlabel, ?_, fun technology cve summary hlabels hsummary => ?_⟩
    · rw [general_mem_attackLabels]
      exact forall₂_congr fun rule hrule => not_congr (hlabel rule hrule)
    · rw [rceCount_single hsummary, hlabels]
      exact hlabel rceRule List.mem_cons_self

/-- The attack types of a CVE are those of the words of its text exactly when no label has its
phrases inside longer words only. -/
theorem attack_types_by_words_iff {description : Json} {weaknesses : List Json}
    (h : attackText description weaknesses = .ok text) :
    ∃ labels, classifyCveAttackType description weaknesses = .ok labels ∧
      (LabelsWords text labels ↔ ∀ rule ∈ attackRules,
        (∃ phrase ∈ rule.2, contains text phrase = true) → Mentions text rule) := by
  refine ⟨attackLabels text, ?_, labelsWords_iff text⟩
  rw [classifyCveAttackType_eq, h]
  rfl

omit [UnicodeTables] [JsonText] in
theorem code_execution_by_words : letI := asciiTables; letI := stringText
    ∃ labels, classifyCveAttackType (.str "Remote code execution") [] = .ok labels ∧
      LabelsWords "remote code execution " labels := by
  let _ := asciiTables
  let _ := stringText
  have htext : attackText (.str "Remote code execution") [] = .ok "remote code execution " := by
    decide +kernel
  obtain ⟨labels, hlabels, hiff⟩ := attack_types_by_words_iff htext
  refine ⟨labels, hlabels, hiff.mpr ?_⟩
  simp only [Mentions]
  decide +kernel

omit [UnicodeTables] [JsonText] in
/-- Resource exhaustion is taken for the execution of code. -/
theorem resource_is_no_rce : ¬ ∀ (_ : UnicodeTables) (_ : JsonText) (description : Json)
    (weaknesses : List Json) (text : String), attackText description weaknesses = .ok text →
    ∃ labels, classifyCveAttackType description weaknesses = .ok labels ∧
      LabelsWords text labels := by
  intro h
  let _ := asciiTables
  let _ := stringText
  have htext : attackText (.str "Resource exhaustion") [] = .ok "resource exhaustion " := by
    decide +kernel
  obtain ⟨labels, hlabels, hwords⟩ := h _ _ _ _ _ htext
  rw [classifyCveAttackType_eq, htext] at hlabels
  cases hlabels
  obtain ⟨phrase, hphrase, hmentions⟩ := (labelsWords_iff _).mp hwords rceRule List.mem_cons_self
    ⟨"rce", by decide, by decide +kernel⟩
  have hnone : ∀ phrase ∈ rceRule.2, hasWords "resource exhaustion " phrase = false := by
    decide +kernel
  exact Bool.false_ne_true ((hnone phrase hphrase).symm.trans hmentions)

end ThreatScanner.Analyzer
