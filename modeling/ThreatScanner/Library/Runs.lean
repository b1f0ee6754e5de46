import Mathlib.Data.List.DropRight
import ThreatScanner.Library.Regex

/-!
# Replacing and cutting out the runs of a class

`replaceRuns` is `re.sub` and `cutRuns` is `re.split` for a class that is repeated at least `lo`
times. Both look at the maximal runs only (`runs_induction`), so a text can be taken apart wherever
no run goes on (`replaceRuns_append`).
-/

namespace ThreatScanner

namespace Regex

variable {σ α : Type*} (mem : σ → α → Bool) (word : α → Bool)

/-- The stretches of a text between the matches, the next `skip` symbols being those of the last
match. -/
def splitFrom (r : Regex σ) : Nat → Option α → List α → List (List α)
  | _, _, [] => [[]]
  | skip + 1, _, c :: cs => splitFrom r skip (some c) cs
  | 0, prev, c :: cs =>
    match (run mem word r prev (c :: cs)).head? with
    | some m => [] :: splitFrom r (m.taken.length - 1) (some c) cs
    | none => (splitFrom r 0 (some c) cs).modifyHead (c :: ·)

/-- The stretches of a text between the matches. -/
def split (r : Regex σ) (cs : List α) : List (List α) := splitFrom mem word r 0 none cs

variable {mem word} {r : Regex σ}

theorem splitFrom_ne_nil (skip : Nat) (prev : Option α) (cs : List α) :
    splitFrom mem word r skip prev cs ≠ [] := by
  induction cs generalizing skip prev with
  | nil => cases skip <;> exact List.cons_ne_nil _ _
  | cons c cs ih =>
    cases skip with
    | succ skip => exact ih skip _
    | zero =>
      rw [splitFrom]
      split
      · exact List.cons_ne_nil _ _
      · exact fun h => ih 0 (some c) (List.modifyHead_eq_nil_iff.mp h)

/-- What a match is replaced by stands between the stretches. -/
theorem subFrom_eq_intercalate (new : List α) (skip : Nat) (prev : Option α) (cs : List α) :
    subFrom mem word r new skip prev cs = new.intercalate (splitFrom mem word r skip prev cs) := by
  induction cs generalizing skip prev with
  | nil => cases skip <;> rfl
  | cons c cs ih =>
    cases skip with
    | succ skip => exact ih skip _
    | zero =>
      rw [subFrom, splitFrom]
      cases (run mem word r prev (c :: cs)).head? with
      | some m =>
        dsimp only
        rw [ih, List.intercalate_cons_of_ne_nil (splitFrom_ne_nil _ _ _), List.nil_append]
      | none =>
        dsimp only
        rw [ih]
        cases hrows : splitFrom mem word r 0 (some c) cs with
        | nil => exact absurd hrows (splitFrom_ne_nil _ _ _)
        | cons row rows => rw [List.modifyHead_cons, List.intercalate_cons_cons_left]

end Regex

section Runs
variable {α : Type*} (p : α → Bool) (lo : Nat)

/-- The text with `new` in the place of each run of `p` with at least `lo` symbols. -/
def replaceRuns (new cs : List α) : List α :=
  Regex.sub (fun (p : α → Bool) a => p a) (fun _ => false) (.rep p lo none) new cs

/-- The stretches of a text between the runs of `p` with at least `lo` symbols. -/
def cutRuns (cs : List α) : List (List α) :=
  Regex.split (fun (p : α → Bool) a => p a) (fun _ => false) (.rep p lo none) cs

variable {p lo}

theorem replaceRuns_eq_intercalate (new cs : List α) :
    replaceRuns p lo new cs = new.intercalate (cutRuns p lo cs) :=
  Regex.subFrom_eq_intercalate new 0 none cs

theorem cutRuns_ne_nil (cs : List α) : cutRuns p lo cs ≠ [] := Regex.splitFrom_ne_nil 0 none cs

theorem head?_greedy (cs : List α) : (Regex.greedy p lo none cs).head? =
    if lo ≤ (cs.takeWhile p).length then some (cs.takeWhile p, cs.dropWhile p) else none := by
  induction cs generalizing lo with
  | nil =>
    simp only [Regex.greedy, List.takeWhile_nil, List.dropWhile_nil, List.length_nil,
      Nat.le_zero_eq]
    split <;> rfl
  | cons c cs ih =>
    rw [Regex.greedy, List.head?_append]
    by_cases hc : p c = true
    · rw [if_pos ⟨hc, Option.some_ne_none 0 |>.symm⟩, List.head?_map, Option.map_none, ih,
        List.takeWhile_cons_of_pos hc, List.dropWhile_cons_of_pos hc, List.length_cons]
      by_cases hlong : lo - 1 ≤ (cs.takeWhile p).length
      · have hlong' : lo ≤ (cs.takeWhile p).length + 1 := by omega
        rw [if_pos hlong, if_pos hlong']
        rfl
      · have hlong' : ¬ lo ≤ (cs.takeWhile p).length + 1 := by omega
        have hzero : lo ≠ 0 := by omega
        rw [if_neg hlong, if_neg hlong', if_neg hzero]
        rfl
    · rw [if_neg (fun h => hc h.1), List.takeWhile_cons_of_neg hc, List.dropWhile_cons_of_neg hc,
        List.length_nil]
      simp only [Nat.le_zero_eq]
      split <;> rfl

theorem dropWhile_cons_length_lt {c : α} (hc : p c = true) (cs : List α) :
    ((c :: cs).dropWhile p).length < (c :: cs).length := by
  rw [List.dropWhile_cons_of_pos hc]
  exact Nat.lt_succ_of_le (List.length_dropWhile_le p cs)

theorem pos_of_run {c : α} {cs : List α} (hlo : 0 < lo)
    (h : lo ≤ ((c :: cs).takeWhile p).length) : p c = true := by
  by_contra hc
  rw [List.takeWhile_cons_of_neg hc] at h
  exact absurd (Nat.lt_of_lt_of_le hlo h) (Nat.lt_irrefl 0)

/-- A text is read by taking off a run of at least `lo` symbols at its head, or else one symbol. -/
theorem runs_induction (hlo : 0 < lo) {motive : List α → Prop} (nil : motive [])
    (run : ∀ c cs, lo ≤ ((c :: cs).takeWhile p).length → motive ((c :: cs).dropWhile p) →
      motive (c :: cs))
    (symbol : ∀ c cs, ¬ lo ≤ ((c :: cs).takeWhile p).length → motive cs → motive (c :: cs))
    (cs : List α) : motive cs := by
  induction hlen : cs.length using Nat.strong_induction_on generalizing cs with
  | _ n ih =>
    subst hlen
    cases cs with
    | nil => exact nil
    | cons c cs =>
      by_cases hrun : lo ≤ ((c :: cs).takeWhile p).length
      · exact run c cs hrun
          (ih _ (dropWhile_cons_length_lt (pos_of_run hlo hrun) cs) _ rfl)
      · exact symbol c cs hrun (ih _ (Nat.lt_succ_self _) _ rfl)

/-- Repetition does not look at what stands before. -/
theorem splitFrom_rep (skip : Nat) (prev prev' : Option α) (cs : List α) :
    Regex.splitFrom (fun (p : α → Bool) a => p a) (fun _ => false) (.rep p lo none) skip prev cs =
      Regex.splitFrom (fun (p : α → Bool) a => p a) (fun _ => false) (.rep p lo none) skip prev'
        cs := by
  cases cs with
  | nil => cases skip <;> rfl
  | cons c cs => cases skip <;> rfl

theorem splitFrom_append (w cs : List α) :
    Regex.splitFrom (fun (p : α → Bool) a => p a) (fun _ => false) (.rep p lo none) w.length none
      (w ++ cs) = cutRuns p lo cs := by
  induction w with
  | nil => rfl
  | cons a w ih => exact (splitFrom_rep w.length (some a) none (w ++ cs)).trans ih

theorem cutRuns_cons (hlo : 0 < lo) (c : α) (cs : List α) : cutRuns p lo (c :: cs) =
    if lo ≤ ((c :: cs).takeWhile p).length then [] :: cutRuns p lo ((c :: cs).dropWhile p)
    else (cutRuns p lo cs).modifyHead (c :: ·) := by
  have hhead : (Regex.run (fun (p : α → Bool) a => p a) (fun _ => false) (.rep p lo none) none
      (c :: cs)).head? = (Regex.greedy p lo none (c :: cs)).head?.map
        fun t => ⟨t.1, [], t.2⟩ := List.head?_map
  rw [cutRuns, Regex.split, Regex.splitFrom, hhead, head?_greedy]
  by_cases hrun : lo ≤ ((c :: cs).takeWhile p).length
  · have hc := pos_of_run hlo hrun
    rw [if_pos hrun, if_pos hrun, List.takeWhile_cons_of_pos hc, List.dropWhile_cons_of_pos hc]
    dsimp only [Option.map_some, List.length_cons, Nat.add_sub_cancel]
    rw [splitFrom_rep _ _ none]
    have hsplit := @splitFrom_append α p lo (cs.takeWhile p) (cs.dropWhile p)
    rw [List.takeWhile_append_dropWhile] at hsplit
    exact congrArg ([] :: ·) hsplit
  · rw [if_neg hrun, if_neg hrun]
    dsimp only [Option.map_none]
    rw [splitFrom_rep _ _ none]
    rfl

variable {new : List α}

theorem replaceRuns_cons (hlo : 0 < lo) (c : α) (cs : List α) : replaceRuns p lo new (c :: cs) =
    if lo ≤ ((c :: cs).takeWhile p).length then
      new ++ replaceRuns p lo new ((c :: cs).dropWhile p)
    else c :: replaceRuns p lo new cs := by
  simp only [replaceRuns_eq_intercalate]
  rw [cutRuns_cons hlo]
  by_cases hrun : lo ≤ ((c :: cs).takeWhile p).length
  · rw [if_pos hrun, if_pos hrun, List.intercalate_cons_of_ne_nil (cutRuns_ne_nil _),
      List.nil_append]
  · rw [if_neg hrun, if_neg hrun]
    cases hrows : cutRuns p lo cs with
    | nil => exact absurd hrows (cutRuns_ne_nil cs)
    | cons row rows => rw [List.modifyHead_cons, List.intercalate_cons_cons_left]

/-! ## Taking a text apart -/

theorem replaceRuns_nil : replaceRuns p lo new [] = [] := rfl

theorem replaceRuns_cons_of_neg (hlo : 0 < lo) {c : α} (hc : ¬ p c = true) (cs : List α) :
    replaceRuns p lo new (c :: cs) = c :: replaceRuns p lo new cs := by
  rw [replaceRuns_cons hlo, if_neg fun hrun => hc (pos_of_run hlo hrun)]

/-- No run goes on from one text to the next. -/
def Apart (p : α → Bool) (x y : List α) : Prop :=
  ∀ a ∈ x.getLast?, ∀ b ∈ y.head?, ¬ (p a = true ∧ p b = true)

variable {x y w : List α}

theorem apart_of_last (h : ∀ a ∈ x.getLast?, ¬ p a = true) : Apart p x y :=
  fun a ha _ _ hab => h a ha hab.1

theorem apart_of_head (h : ∀ a ∈ y.head?, ¬ p a = true) : Apart p x y :=
  fun _ _ b hb hab => h b hb hab.2

theorem takeWhile_append_of_apart (h : Apart p x y) (hx : x ≠ []) :
    (x ++ y).takeWhile p = x.takeWhile p ∧ (x ++ y).dropWhile p = x.dropWhile p ++ y := by
  rw [List.takeWhile_append, List.dropWhile_append]
  by_cases hall : (x.takeWhile p).length = x.length
  · have hself : x.takeWhile p = x := (List.takeWhile_prefix p).eq_of_length hall
    have hmem : ∀ a ∈ x, p a = true := List.takeWhile_eq_self_iff.mp hself
    have hdrop : x.dropWhile p = [] := List.dropWhile_eq_nil_iff.mpr hmem
    rw [if_pos hall, hdrop, hself]
    cases y with
    | nil => exact ⟨List.append_nil x, rfl⟩
    | cons b y =>
      have hb : ¬ p b = true := fun hb =>
        h _ (List.getLast?_eq_getLast_of_ne_nil hx) b rfl ⟨hmem _ (List.getLast_mem hx), hb⟩
      rw [List.takeWhile_cons_of_neg hb, List.append_nil]
      exact ⟨rfl, List.dropWhile_cons_of_neg hb⟩
  · have hne : ¬ (x.dropWhile p).isEmpty = true := fun hempty => hall (by
      have happend := congrArg List.length (List.takeWhile_append_dropWhile (p := p) (l := x))
      rw [List.isEmpty_iff.mp hempty, List.append_nil] at happend
      exact happend)
    rw [if_neg hall, if_neg hne]
    exact ⟨rfl, rfl⟩

theorem getLast?_dropWhile {a : α} (h : a ∈ (x.dropWhile p).getLast?) :
    a ∈ x.getLast? := by
  rw [← List.takeWhile_append_dropWhile (p := p) (l := x), List.getLast?_append]
  exact Option.or_eq_some_iff.mpr (.inl h)

/-- A text can be taken apart where no run goes on. -/
theorem replaceRuns_append (hlo : 0 < lo) (h : Apart p x y) :
    replaceRuns p lo new (x ++ y) = replaceRuns p lo new x ++ replaceRuns p lo new y := by
  induction x using runs_induction (p := p) hlo with
  | nil => rfl
  | run c cs hrun ih =>
    obtain ⟨htake, hdrop⟩ := takeWhile_append_of_apart h (List.cons_ne_nil c cs)
    rw [List.cons_append] at htake hdrop ⊢
    rw [replaceRuns_cons hlo, htake, hdrop, if_pos hrun,
      ih fun a ha => h a (getLast?_dropWhile ha), replaceRuns_cons hlo, if_pos hrun,
      List.append_assoc]
  | symbol c cs hrun ih =>
    obtain ⟨htake, -⟩ := takeWhile_append_of_apart h (List.cons_ne_nil c cs)
    rw [List.cons_append] at htake ⊢
    rw [replaceRuns_cons hlo, htake, if_neg hrun, replaceRuns_cons hlo, if_neg hrun,
      List.cons_append, ih fun a ha => h a (by cases cs with | nil => cases ha | cons => exact ha)]

theorem replaceRuns_append_append (hlo : 0 < lo) (hw : w ≠ []) (hx : Apart p x w)
    (hy : Apart p w y) : replaceRuns p lo new (x ++ w ++ y) =
      replaceRuns p lo new x ++ replaceRuns p lo new w ++ replaceRuns p lo new y := by
  have hlast : (x ++ w).getLast? = w.getLast? := by
    rw [List.getLast?_append, List.getLast?_eq_getLast_of_ne_nil hw, Option.some_or]
  rw [replaceRuns_append hlo (show Apart p (x ++ w) y from fun a ha => hy a (hlast ▸ ha)),
    replaceRuns_append hlo hx]

/-- A run of at least `lo` symbols is replaced. -/
theorem replaceRuns_run (hlo : 0 < lo) (hw : ∀ a ∈ w, p a = true)
    (hlen : lo ≤ w.length) : replaceRuns p lo new w = new := by
  cases w with
  | nil => exact absurd (Nat.lt_of_lt_of_le hlo hlen) (Nat.lt_irrefl 0)
  | cons c w =>
    rw [replaceRuns_cons hlo, List.takeWhile_eq_self_iff.mpr hw, if_pos hlen,
      List.dropWhile_eq_nil_iff.mpr hw, replaceRuns_nil, List.append_nil]

theorem not_of_mem_head?_dropWhile {a : α} (h : a ∈ (y.dropWhile p).head?) :
    ¬ p a = true := by
  have hnot := List.head?_dropWhile_not p y
  rw [Option.mem_def.mp h] at hnot
  exact Bool.eq_false_iff.mp hnot

theorem not_of_mem_getLast?_rdropWhile {a : α} (h : a ∈ (x.rdropWhile p).getLast?) :
    ¬ p a = true := by
  obtain ⟨hne, rfl⟩ := List.mem_getLast?_eq_getLast h
  exact List.rdropWhile_last_not p x hne

/-- A run of at least `lo` symbols is replaced with all that goes on with it on both sides. -/
theorem replaceRuns_run_within (hlo : 0 < lo) (hw : ∀ a ∈ w, p a = true)
    (hlen : lo ≤ w.length) (x y : List α) : replaceRuns p lo new (x ++ w ++ y) =
      replaceRuns p lo new (x.rdropWhile p) ++ new ++ replaceRuns p lo new (y.dropWhile p) := by
  have hparts : x ++ w ++ y = x.rdropWhile p ++ (x.rtakeWhile p ++ w ++ y.takeWhile p) ++
      y.dropWhile p := by
    conv_lhs => rw [← List.rdropWhile_append_rtakeWhile (p := p) (l := x),
      ← List.takeWhile_append_dropWhile (p := p) (l := y)]
    simp only [List.append_assoc]
  have hrun : ∀ a ∈ x.rtakeWhile p ++ w ++ y.takeWhile p, p a = true := by
    intro a ha
    rcases List.mem_append.mp ha with ha | ha
    · exact (List.mem_append.mp ha).elim List.mem_rtakeWhile_imp (hw a)
    · exact List.mem_takeWhile_imp ha
  rw [hparts, replaceRuns_append hlo (apart_of_head fun _ => not_of_mem_head?_dropWhile),
    replaceRuns_append hlo (apart_of_last fun _ => not_of_mem_getLast?_rdropWhile),
    replaceRuns_run hlo hrun]
  rw [List.length_append, List.length_append]
  omega

/-- A text without symbols of `p` is left as it is. -/
theorem replaceRuns_of_forall_not (hlo : 0 < lo) (hw : ∀ a ∈ w, ¬ p a = true) :
    replaceRuns p lo new w = w := by
  induction w with
  | nil => rfl
  | cons c w ih =>
    obtain ⟨hc, hw⟩ := List.forall_mem_cons.mp hw
    rw [replaceRuns_cons_of_neg hlo hc, ih hw]

/-- A text of less than `lo` symbols is left as it is. -/
theorem replaceRuns_of_length_lt (hw : w.length < lo) :
    replaceRuns p lo new w = w := by
  have hlo : 0 < lo := Nat.lt_of_le_of_lt (Nat.zero_le _) hw
  induction w with
  | nil => rfl
  | cons c w ih =>
    have hrun : ¬ lo ≤ ((c :: w).takeWhile p).length := fun hrun =>
      absurd (Nat.le_trans hrun (List.takeWhile_prefix p).length_le) (Nat.not_le.mpr hw)
    rw [replaceRuns_cons hlo, if_neg hrun, ih (Nat.lt_of_succ_lt hw)]

theorem replaceRuns_ne_nil (hlo : 0 < lo) (hnew : new ≠ []) {cs : List α} (hcs : cs ≠ []) :
    replaceRuns p lo new cs ≠ [] := by
  cases cs with
  | nil => exact absurd rfl hcs
  | cons c cs =>
    rw [replaceRuns_cons hlo]
    split
    · exact fun hnil => hnew (List.append_eq_nil_iff.mp hnil).1
    · exact List.cons_ne_nil _ _

theorem length_replaceRuns_le (hlo : 0 < lo) (hnew : new.length ≤ lo) (cs : List α) :
    (replaceRuns p lo new cs).length ≤ cs.length := by
  induction cs using runs_induction (p := p) hlo with
  | nil => exact Nat.le_refl _
  | run c cs hrun ih =>
    have happend := congrArg List.length
      (List.takeWhile_append_dropWhile (p := p) (l := c :: cs))
    rw [List.length_append] at happend
    rw [replaceRuns_cons hlo, if_pos hrun, List.length_append]
    omega
  | symbol c cs hrun ih =>
    rw [replaceRuns_cons hlo, if_neg hrun, List.length_cons, List.length_cons]
    omega

/-- The last symbol is that of the text, or of what is put in. -/
theorem getLast?_replaceRuns (hlo : 0 < lo) (hnew : new ≠ []) {cs : List α} {a : α}
    (h : a ∈ (replaceRuns p lo new cs).getLast?) : a ∈ new ∨ a ∈ cs.getLast? := by
  induction cs using runs_induction (p := p) hlo with
  | nil => cases h
  | run c cs hrun ih =>
    rw [replaceRuns_cons hlo, if_pos hrun, List.getLast?_append] at h
    rcases Option.or_eq_some_iff.mp h with h | ⟨-, h⟩
    · exact (ih h).imp_right getLast?_dropWhile
    · exact .inl (List.mem_of_getLast? h)
  | symbol c cs hrun ih =>
    rw [replaceRuns_cons hlo, if_neg hrun] at h
    cases cs with
    | nil => exact .inr h
    | cons c' cs =>
      have hne : replaceRuns p lo new (c' :: cs) ≠ [] :=
        replaceRuns_ne_nil hlo hnew (List.cons_ne_nil c' cs)
      rw [List.getLast?_cons_of_ne_nil hne] at h
      exact (ih h).imp_right id

theorem head?_replaceRuns (hlo : 0 < lo) (hnew : new ≠ []) {cs : List α} {a : α}
    (h : a ∈ (replaceRuns p lo new cs).head?) : a ∈ new ∨ a ∈ cs.head? := by
  cases cs with
  | nil => cases h
  | cons c cs =>
    rw [replaceRuns_cons hlo] at h
    split at h
    · rw [List.head?_append_of_ne_nil _ hnew] at h
      exact .inl (List.mem_of_head? h)
    · exact .inr h

theorem mem_replaceRuns (hlo : 0 < lo) {cs : List α} {a : α} (h : a ∈ replaceRuns p lo new cs) :
    a ∈ new ∨ a ∈ cs := by
  induction cs using runs_induction (p := p) hlo with
  | nil => cases h
  | run c cs hrun ih =>
    rw [replaceRuns_cons hlo, if_pos hrun] at h
    rcases List.mem_append.mp h with h | h
    · exact .inl h
    · exact (ih h).imp_right fun h => (List.dropWhile_suffix p).subset h
  | symbol c cs hrun ih =>
    rw [replaceRuns_cons hlo, if_neg hrun] at h
    rcases List.mem_cons.mp h with rfl | h
    · exact .inr List.mem_cons_self
    · exact (ih h).imp_right (List.mem_cons_of_mem c)

/-- What stands between symbols that are not in `p` is taken apart there. -/
theorem replaceRuns_intercalate (hlo : 0 < lo) {a : α} (ha : ¬ p a = true)
    (rows : List (List α)) : replaceRuns p lo new ([a].intercalate rows) =
      [a].intercalate (rows.map (replaceRuns p lo new)) := by
  induction rows with
  | nil => rfl
  | cons row rows ih =>
    cases rows with
    | nil => rw [List.intercalate_singleton, List.map_singleton, List.intercalate_singleton]
    | cons row' rows =>
      have hrow : Apart p row ([a] ++ [a].intercalate (row' :: rows)) :=
        apart_of_head fun b hb => Option.some.inj hb ▸ ha
      rw [List.intercalate_cons_cons, List.append_assoc, replaceRuns_append hlo hrow,
        List.singleton_append, replaceRuns_cons_of_neg hlo ha, ih]
      simp only [List.map_cons, List.intercalate_cons_cons, List.append_assoc,
        List.singleton_append]

/-- When every run is replaced, no symbol of `p` is left but in what is put in. -/
theorem mem_replaceRuns_one {cs : List α} {a : α} (h : a ∈ replaceRuns p 1 new cs) :
    a ∈ new ∨ ¬ p a = true := by
  induction cs using runs_induction (p := p) Nat.one_pos with
  | nil => cases h
  | run c cs hrun ih =>
    rw [replaceRuns_cons Nat.one_pos, if_pos hrun] at h
    exact (List.mem_append.mp h).elim .inl ih
  | symbol c cs hrun ih =>
    rw [replaceRuns_cons Nat.one_pos, if_neg hrun] at h
    rcases List.mem_cons.mp h with rfl | h
    · refine .inr fun ha => hrun ?_
      rw [List.takeWhile_cons_of_pos ha]
      exact Nat.succ_pos _
    · exact ih h

end Runs

end ThreatScanner
