import ThreatScanner.Library.Regex

/-!
# What an expression matches

`Matches` says which stretches of a text an expression matches, told the symbols before and after
them; `run` finds these and no others. The meaning of the classes can be changed where the two
meanings agree on the symbols of the stretch (`Matches.mono`). When the expression begins with parts
that match only finitely many words and goes on with parts for which the meaning makes no
difference, a stretch that is matched under the one meaning is matched under the other exactly when
it begins with one of these words (`matches_iff_head`).
-/

namespace ThreatScanner.Regex

variable {σ α : Type*}

/-- The classes of an expression. -/
def classes : Regex σ → List σ
  | one c | rep c _ _ => [c]
  | seq r s | alt r s => classes r ++ classes s
  | group r => classes r
  | empty | boundary => []

/-- The number of symbols of what is matched, where all that is matched has the same. -/
def width : Regex σ → Option Nat
  | empty | boundary => some 0
  | one _ => some 1
  | rep _ lo hi => if hi = some lo then some lo else none
  | seq r s => (width r).bind fun m => (width s).map (m + ·)
  | alt r s => if width r = width s then width r else none
  | group r => width r

section
variable (mem : σ → α → Bool) (word : α → Bool)

/-- The expression matches a stretch, `prev` and `next` being the symbols around it. -/
def Matches : Regex σ → Option α → List α → Option α → Prop
  | empty, _, t, _ => t = []
  | one c, _, t, _ => ∃ a, t = [a] ∧ mem c a = true
  | rep c lo hi, _, t, _ =>
    lo ≤ t.length ∧ (∀ n ∈ hi, t.length ≤ n) ∧ ∀ a ∈ t, mem c a = true
  | seq r s, prev, t, next => ∃ t₁ t₂, t = t₁ ++ t₂ ∧
    Matches r prev t₁ (t₂.head?.or next) ∧ Matches s (t₁.getLast?.or prev) t₂ next
  | alt r s, prev, t, next => Matches r prev t next ∨ Matches s prev t next
  | group r, prev, t, next => Matches r prev t next
  | boundary, prev, t, next => t = [] ∧ prev.any word ≠ next.any word

end

section Run
variable {mem : σ → α → Bool} {word : α → Bool} {r s : Regex σ} {prev next : Option α}
  {cs t rest : List α}

theorem mem_greedy_iff {p : α → Bool} {lo : Nat} {hi : Option Nat} :
    (t, rest) ∈ greedy p lo hi cs ↔ cs = t ++ rest ∧
      lo ≤ t.length ∧ (∀ n ∈ hi, t.length ≤ n) ∧ ∀ a ∈ t, p a = true := by
  induction cs generalizing lo hi t with
  | nil =>
    rw [greedy]
    constructor
    · intro h
      split at h
      · next hlo =>
        cases List.mem_singleton.mp h
        exact ⟨rfl, Nat.le_of_eq hlo, fun _ _ => Nat.zero_le _, List.forall_mem_nil _⟩
      · cases h
    · rintro ⟨happend, hlo, -, -⟩
      obtain ⟨rfl, rfl⟩ := List.append_eq_nil_iff.mp happend.symm
      rw [if_pos (Nat.le_zero.mp hlo)]
      exact List.mem_singleton.mpr rfl
  | cons c cs ih =>
    rw [greedy, List.mem_append]
    constructor
    · rintro (h | h)
      · split at h
        · next hc =>
          obtain ⟨⟨t', rest'⟩, ht', heq⟩ := List.mem_map.mp h
          obtain ⟨rfl, rfl⟩ : c :: t' = t ∧ rest' = rest := Prod.mk.inj heq
          obtain ⟨rfl, hlo, hhi, hall⟩ := ih.mp ht'
          refine ⟨rfl, ?_, fun n hn => ?_, List.forall_mem_cons.mpr ⟨hc.1, hall⟩⟩
          · rw [List.length_cons]
            omega
          · obtain rfl : hi = some n := hn
            have hle := hhi (n - 1) rfl
            have hpos : n ≠ 0 := fun hzero => hc.2 (congrArg some hzero)
            rw [List.length_cons]
            omega
        · cases h
      · split at h
        · next hlo =>
          cases List.mem_singleton.mp h
          exact ⟨rfl, Nat.le_of_eq hlo, fun _ _ => Nat.zero_le _, List.forall_mem_nil _⟩
        · cases h
    · rintro ⟨happend, hlo, hhi, hall⟩
      cases t with
      | nil =>
        obtain rfl : rest = c :: cs := happend.symm
        rw [if_pos (Nat.le_zero.mp hlo)]
        exact .inr (List.mem_singleton.mpr rfl)
      | cons a t =>
        obtain ⟨rfl, rfl⟩ := List.cons.inj happend
        obtain ⟨hc, hall⟩ := List.forall_mem_cons.mp hall
        have hne : hi ≠ some 0 := fun hzero => absurd (hhi 0 hzero) (Nat.not_succ_le_zero _)
        rw [if_pos ⟨hc, hne⟩]
        refine .inl (List.mem_map.mpr ⟨(t, rest), ih.mpr ⟨rfl, ?_, fun n hn => ?_, hall⟩, rfl⟩)
        · rw [List.length_cons] at hlo
          omega
        · obtain ⟨m, hm, rfl⟩ := Option.map_eq_some_iff.mp hn
          have hle := hhi m hm
          rw [List.length_cons] at hle
          omega

theorem orElse_eq_or (o o' : Option α) : (o <|> o') = o.or o' := by
  cases o <;> rfl

/-- What is found is matched. -/
theorem matches_of_mem_run {m : Parse α} (h : m ∈ run mem word r prev cs) :
    cs = m.taken ++ m.rest ∧ Matches mem word r prev m.taken m.rest.head? := by
  induction r generalizing prev cs m with
  | empty =>
    cases List.mem_singleton.mp h
    exact ⟨rfl, rfl⟩
  | boundary =>
    rw [run] at h
    split at h
    · next hword =>
      cases List.mem_singleton.mp h
      exact ⟨rfl, rfl, hword⟩
    · cases h
  | one c =>
    cases cs with
    | nil => cases h
    | cons a cs =>
      rw [run] at h
      split at h
      · next ha =>
        cases List.mem_singleton.mp h
        exact ⟨rfl, a, rfl, ha⟩
      · cases h
  | rep c lo hi =>
    obtain ⟨⟨t, rest⟩, ht, rfl⟩ := List.mem_map.mp h
    exact mem_greedy_iff.mp ht
  | seq r s ihr ihs =>
    obtain ⟨m₁, h₁, h⟩ := List.mem_flatMap.mp h
    obtain ⟨m₂, h₂, rfl⟩ := List.mem_map.mp h
    rw [orElse_eq_or] at h₂
    obtain ⟨rfl, hmatch₁⟩ := ihr h₁
    obtain ⟨hrest, hmatch₂⟩ := ihs h₂
    refine ⟨?_, m₁.taken, m₂.taken, rfl, ?_, hmatch₂⟩
    · rw [hrest, List.append_assoc]
    · rwa [hrest, List.head?_append] at hmatch₁
  | alt r s ihr ihs =>
    rcases List.mem_append.mp h with h | h
    · obtain ⟨m', hm', rfl⟩ := List.mem_map.mp h
      exact ⟨(ihr hm').1, .inl (ihr hm').2⟩
    · obtain ⟨m', hm', rfl⟩ := List.mem_map.mp h
      exact ⟨(ihs hm').1, .inr (ihs hm').2⟩
  | group r ih =>
    obtain ⟨m', hm', rfl⟩ := List.mem_map.mp h
    have hmatch := ih hm'
    exact hmatch

/-- What is matched is found. -/
theorem exists_run_of_matches (h : Matches mem word r prev t rest.head?) :
    ∃ m ∈ run mem word r prev (t ++ rest), m.taken = t ∧ m.rest = rest := by
  induction r generalizing prev t rest with
  | empty =>
    obtain rfl : t = [] := h
    exact ⟨_, List.mem_singleton.mpr rfl, rfl, rfl⟩
  | boundary =>
    obtain ⟨rfl, hword⟩ := h
    refine ⟨⟨[], [], rest⟩, ?_, rfl, rfl⟩
    rw [List.nil_append, run, if_pos hword]
    exact List.mem_singleton.mpr rfl
  | one c =>
    obtain ⟨a, rfl, ha⟩ := h
    refine ⟨⟨[a], [], rest⟩, ?_, rfl, rfl⟩
    rw [List.singleton_append, run, if_pos ha]
    exact List.mem_singleton.mpr rfl
  | rep c lo hi =>
    exact ⟨_, List.mem_map.mpr ⟨(t, rest), mem_greedy_iff.mpr ⟨rfl, h⟩, rfl⟩, rfl, rfl⟩
  | seq r s ihr ihs =>
    obtain ⟨t₁, t₂, rfl, hmatch₁, hmatch₂⟩ := h
    rw [← List.head?_append] at hmatch₁
    obtain ⟨m₁, h₁, rfl, hrest⟩ := ihr hmatch₁
    obtain ⟨m₂, h₂, rfl, rfl⟩ := ihs hmatch₂
    refine ⟨_, List.mem_flatMap.mpr ⟨m₁, ?_, List.mem_map.mpr ⟨m₂, ?_, rfl⟩⟩, rfl, rfl⟩
    · rwa [List.append_assoc]
    · rwa [hrest, orElse_eq_or]
  | alt r s ihr ihs =>
    rcases h with h | h
    · obtain ⟨m, hm, rfl, rfl⟩ := ihr h
      exact ⟨_, List.mem_append_left _ (List.mem_map_of_mem hm), rfl, rfl⟩
    · obtain ⟨m, hm, rfl, rfl⟩ := ihs h
      exact ⟨_, List.mem_append_right _ (List.mem_map_of_mem hm), rfl, rfl⟩
  | group r ih =>
    obtain ⟨m, hm, rfl, rfl⟩ := ih h
    exact ⟨_, List.mem_map_of_mem hm, rfl, rfl⟩

end Run

/-! ## Two meanings of the classes -/

section Meanings
variable {mem mem' : σ → α → Bool} {word : α → Bool} {r s : Regex σ} {prev next : Option α}
  {t w : List α}

/-- Each symbol that is matched is in a class of the expression. -/
theorem Matches.exists_class (h : Matches mem word r prev t next) {a : α} (ha : a ∈ t) :
    ∃ c ∈ r.classes, mem c a = true := by
  induction r generalizing prev t next with
  | empty =>
    obtain rfl : t = [] := h
    cases ha
  | boundary =>
    obtain ⟨rfl, -⟩ := h
    cases ha
  | one c =>
    obtain ⟨b, rfl, hb⟩ := h
    cases List.mem_singleton.mp ha
    exact ⟨c, List.mem_singleton.mpr rfl, hb⟩
  | rep c lo hi => exact ⟨c, List.mem_singleton.mpr rfl, h.2.2 a ha⟩
  | seq r s ihr ihs =>
    obtain ⟨t₁, t₂, rfl, h₁, h₂⟩ := h
    rcases List.mem_append.mp ha with ha | ha
    · obtain ⟨c, hc, hmem⟩ := ihr h₁ ha
      exact ⟨c, List.mem_append_left _ hc, hmem⟩
    · obtain ⟨c, hc, hmem⟩ := ihs h₂ ha
      exact ⟨c, List.mem_append_right _ hc, hmem⟩
  | alt r s ihr ihs =>
    rcases h with h | h
    · obtain ⟨c, hc, hmem⟩ := ihr h ha
      exact ⟨c, List.mem_append_left _ hc, hmem⟩
    · obtain ⟨c, hc, hmem⟩ := ihs h ha
      exact ⟨c, List.mem_append_right _ hc, hmem⟩
  | group r ih => exact ih h ha

/-- What is matched is matched under another meaning that agrees on its symbols. -/
theorem Matches.mono (h : Matches mem word r prev t next)
    (hmem : ∀ c ∈ r.classes, ∀ a ∈ t, mem c a = true → mem' c a = true) :
    Matches mem' word r prev t next := by
  induction r generalizing prev t next with
  | empty => exact h
  | boundary => exact h
  | one c =>
    obtain ⟨a, rfl, ha⟩ := h
    exact ⟨a, rfl, hmem c (List.mem_singleton.mpr rfl) a (List.mem_singleton.mpr rfl) ha⟩
  | rep c lo hi =>
    exact ⟨h.1, h.2.1, fun a ha => hmem c (List.mem_singleton.mpr rfl) a ha (h.2.2 a ha)⟩
  | seq r s ihr ihs =>
    obtain ⟨t₁, t₂, rfl, h₁, h₂⟩ := h
    exact ⟨t₁, t₂, rfl,
      ihr h₁ fun c hc a ha => hmem c (List.mem_append_left _ hc) a (List.mem_append_left _ ha),
      ihs h₂ fun c hc a ha => hmem c (List.mem_append_right _ hc) a (List.mem_append_right _ ha)⟩
  | alt r s ihr ihs =>
    rcases h with h | h
    · exact .inl (ihr h fun c hc => hmem c (List.mem_append_left _ hc))
    · exact .inr (ihs h fun c hc => hmem c (List.mem_append_right _ hc))
  | group r ih => exact ih h hmem

theorem Matches.length_eq (h : Matches mem word r prev t next) {n : Nat}
    (hwidth : r.width = some n) : t.length = n := by
  induction r generalizing prev t next n with
  | empty =>
    obtain rfl : t = [] := h
    exact Option.some.inj hwidth
  | boundary =>
    obtain ⟨rfl, -⟩ := h
    exact Option.some.inj hwidth
  | one c =>
    obtain ⟨a, rfl, -⟩ := h
    exact Option.some.inj hwidth
  | rep c lo hi =>
    simp only [width] at hwidth
    split at hwidth
    · next hhi =>
      cases hwidth
      exact Nat.le_antisymm (h.2.1 _ hhi) h.1
    · cases hwidth
  | seq r s ihr ihs =>
    obtain ⟨t₁, t₂, rfl, h₁, h₂⟩ := h
    obtain ⟨m₁, hm₁, hwidth⟩ := Option.bind_eq_some_iff.mp hwidth
    obtain ⟨m₂, hm₂, rfl⟩ := Option.map_eq_some_iff.mp hwidth
    rw [List.length_append, ihr h₁ hm₁, ihs h₂ hm₂]
  | alt r s ihr ihs =>
    simp only [width] at hwidth
    split at hwidth
    · next heq =>
      rcases h with h | h
      · exact ihr h hwidth
      · exact ihs h (heq ▸ hwidth)
    · cases hwidth
  | group r ih => exact ih h hwidth

end Meanings

/-! ## Expressions for finitely many words -/

/-- No repetition and no boundary, and alternatives of the same width. -/
def rigid : Regex σ → Bool
  | empty | one _ => true
  | rep _ _ _ | boundary => false
  | seq r s => rigid r && rigid s
  | alt r s => rigid r && rigid s && width r == width s
  | group r => rigid r

/-- The words of a rigid expression whose classes consist of these symbols. -/
def words (symbols : σ → List α) : Regex σ → List (List α)
  | empty => [[]]
  | one c => (symbols c).map fun a => [a]
  | seq r s => (words symbols r).flatMap fun w => (words symbols s).map (w ++ ·)
  | alt r s => words symbols r ++ words symbols s
  | group r => words symbols r
  | rep _ _ _ | boundary => []

/-- The first `k` parts of a sequence and the others. -/
def splitSeq : Nat → Regex σ → Regex σ × Regex σ
  | k + 1, seq r s => (seq r (splitSeq k s).1, (splitSeq k s).2)
  | _, r => (empty, r)

section Words
variable {mem mem' : σ → α → Bool} {word : α → Bool} {symbols : σ → List α} {r : Regex σ}
  {prev next : Option α} {t : List α}

theorem matches_iff_mem_words (hrigid : r.rigid = true)
    (hsymbols : ∀ c ∈ r.classes, ∀ a, mem c a = true ↔ a ∈ symbols c) :
    Matches mem word r prev t next ↔ t ∈ words symbols r := by
  induction r generalizing prev t next with
  | empty => exact List.mem_singleton.symm
  | rep => cases hrigid
  | boundary => cases hrigid
  | one c =>
    rw [words, List.mem_map]
    constructor
    · rintro ⟨a, rfl, ha⟩
      exact ⟨a, (hsymbols c (List.mem_singleton.mpr rfl) a).mp ha, rfl⟩
    · rintro ⟨a, ha, rfl⟩
      exact ⟨a, rfl, (hsymbols c (List.mem_singleton.mpr rfl) a).mpr ha⟩
  | seq r s ihr ihs =>
    obtain ⟨hr, hs⟩ := Bool.and_eq_true_iff.mp hrigid
    have hsymr := fun c hc => hsymbols c (List.mem_append_left _ hc)
    have hsyms := fun c hc => hsymbols c (List.mem_append_right _ hc)
    rw [words, List.mem_flatMap]
    constructor
    · rintro ⟨t₁, t₂, rfl, h₁, h₂⟩
      exact ⟨t₁, (ihr hr hsymr).mp h₁, List.mem_map_of_mem ((ihs hs hsyms).mp h₂)⟩
    · rintro ⟨t₁, h₁, h⟩
      obtain ⟨t₂, h₂, rfl⟩ := List.mem_map.mp h
      exact ⟨t₁, t₂, rfl, (ihr hr hsymr).mpr h₁, (ihs hs hsyms).mpr h₂⟩
  | alt r s ihr ihs =>
    obtain ⟨hboth, -⟩ := Bool.and_eq_true_iff.mp hrigid
    obtain ⟨hr, hs⟩ := Bool.and_eq_true_iff.mp hboth
    rw [words, List.mem_append]
    exact or_congr (ihr hr fun c hc => hsymbols c (List.mem_append_left _ hc))
      (ihs hs fun c hc => hsymbols c (List.mem_append_right _ hc))
  | group r ih => exact ih hrigid hsymbols

theorem exists_width (hrigid : r.rigid = true) : ∃ n, r.width = some n := by
  induction r with
  | empty => exact ⟨0, rfl⟩
  | one => exact ⟨1, rfl⟩
  | rep => cases hrigid
  | boundary => cases hrigid
  | seq r s ihr ihs =>
    obtain ⟨hr, hs⟩ := Bool.and_eq_true_iff.mp hrigid
    obtain ⟨m, hm⟩ := ihr hr
    obtain ⟨n, hn⟩ := ihs hs
    refine ⟨m + n, ?_⟩
    rw [width, hm, hn]
    rfl
  | alt r s ihr ihs =>
    obtain ⟨hboth, hwidth⟩ := Bool.and_eq_true_iff.mp hrigid
    obtain ⟨m, hm⟩ := ihr (Bool.and_eq_true_iff.mp hboth).1
    refine ⟨m, ?_⟩
    rw [width, if_pos (beq_iff_eq.mp hwidth), hm]
  | group r ih => exact ih hrigid

theorem matches_seq_assoc {s u : Regex σ} : Matches mem word (seq (seq r s) u) prev t next ↔
    Matches mem word (seq r (seq s u)) prev t next := by
  constructor
  · rintro ⟨t', t₃, rfl, ⟨t₁, t₂, rfl, h₁, h₂⟩, h₃⟩
    refine ⟨t₁, t₂ ++ t₃, List.append_assoc .., ?_, t₂, t₃, rfl, h₂, ?_⟩
    · rwa [List.head?_append, Option.or_assoc]
    · rwa [List.getLast?_append, Option.or_assoc] at h₃
  · rintro ⟨t₁, t', rfl, h₁, t₂, t₃, rfl, h₂, h₃⟩
    refine ⟨t₁ ++ t₂, t₃, (List.append_assoc ..).symm, ⟨t₁, t₂, rfl, ?_, h₂⟩, ?_⟩
    · rwa [List.head?_append, Option.or_assoc] at h₁
    · rwa [List.getLast?_append, Option.or_assoc]

theorem matches_seq_congr {s s' : Regex σ} (h : ∀ prev t, Matches mem word s prev t next ↔
    Matches mem word s' prev t next) :
    Matches mem word (seq r s) prev t next ↔ Matches mem word (seq r s') prev t next :=
  exists_congr fun _ => exists_congr fun _ => and_congr_right' (and_congr_right' (h _ _))

theorem matches_empty_seq :
    Matches mem word (seq empty r) prev t next ↔ Matches mem word r prev t next := by
  constructor
  · rintro ⟨_, t, rfl, rfl, h⟩
    exact h
  · exact fun h => ⟨[], t, rfl, rfl, h⟩

theorem matches_splitSeq (k : Nat) : Matches mem word r prev t next ↔
    Matches mem word (seq (splitSeq k r).1 (splitSeq k r).2) prev t next := by
  induction k generalizing r prev t with
  | zero => exact matches_empty_seq.symm
  | succ k ih =>
    cases r with
    | seq r s =>
      calc Matches mem word (seq r s) prev t next
        _ ↔ Matches mem word (seq r (seq (splitSeq k s).1 (splitSeq k s).2)) prev t next :=
          matches_seq_congr fun _ _ => ih
        _ ↔ Matches mem word (seq (seq r (splitSeq k s).1) (splitSeq k s).2) prev t next :=
          matches_seq_assoc.symm
    | _ => exact matches_empty_seq.symm

/-- What is matched under one meaning of the classes is matched under another exactly when it
begins with one of the words of the head, if the other parts make no difference. -/
theorem matches_iff_head (k : Nat) (hrigid : (splitSeq k r).1.rigid = true)
    (hsymbols : ∀ c ∈ (splitSeq k r).1.classes, ∀ a, mem' c a = true ↔ a ∈ symbols c)
    (htail : ∀ c ∈ (splitSeq k r).2.classes, ∀ a ∈ t, mem c a = true → mem' c a = true)
    (h : Matches mem word r prev t next) :
    Matches mem' word r prev t next ↔ ∃ w ∈ words symbols (splitSeq k r).1, w <+: t := by
  obtain ⟨n, hn⟩ := exists_width hrigid
  obtain ⟨t₁, t₂, rfl, h₁, h₂⟩ := (matches_splitSeq k).mp h
  rw [matches_splitSeq k]
  constructor
  · rintro ⟨w, rest, heq, hw, -⟩
    exact ⟨w, (matches_iff_mem_words hrigid hsymbols).mp hw, rest, heq.symm⟩
  · rintro ⟨w, hw, rest, heq⟩
    have hword {prev next : Option α} : Matches mem' word (splitSeq k r).1 prev w next :=
      (matches_iff_mem_words hrigid hsymbols).mpr hw
    have hlength : w.length = t₁.length := by
      rw [h₁.length_eq hn, Matches.length_eq (@hword none none) hn]
    obtain ⟨rfl, rfl⟩ := List.append_inj heq hlength
    exact ⟨w, rest, rfl, hword,
      h₂.mono fun c hc a ha => htail c hc a (List.mem_append_right _ ha)⟩

end Words

end ThreatScanner.Regex
