import Mathlib.Data.List.Induction

/-!
# Runs of a partial transition function

A system is a partial function `step : State → Label → Option State`: `none` where the label is
not enabled. A run is the list of the labels it performs (`exec`). A condition on the steps of a
run, read at the state each step is taken in, is `AllSteps`.

What the steps of a run do to the outside is a list of observations (`trace`).

The rules of the file package the inductions over runs: an invariant (`exec_invariant`,
`exec_invariant_of`), a relation between the labels performed so far and the state reached
(`exec_trace`), and a preorder every step respects (`exec_rel`).
-/

namespace ThreatScanner.Transition

variable {State Label : Type*}

/-- The state a run ends in, `none` when one of its labels is not enabled. -/
def exec (step : State → Label → Option State) : State → List Label → Option State
  | s, [] => some s
  | s, l :: ls => (step s l).bind fun t => exec step t ls

/-- Every step of the run is taken in a state that meets the condition. -/
def AllSteps (step : State → Label → Option State) (cond : State → Label → Prop) :
    State → List Label → Prop
  | _, [] => True
  | s, l :: ls => cond s l ∧ ∀ t, step s l = some t → AllSteps step cond t ls

/-- What is observed of the steps of a run, in order. -/
def trace {Obs : Type*} (step : State → Label → Option State) (obs : State → Label → List Obs) :
    State → List Label → List Obs
  | _, [] => []
  | s, l :: ls => obs s l ++ ((step s l).map fun t => trace step obs t ls).getD []

variable {step : State → Label → Option State} {cond : State → Label → Prop}
variable {s t u : State} {l : Label} {ls ms : List Label}

@[simp] theorem exec_nil : exec step s [] = some s := rfl

theorem exec_cons : exec step s (l :: ls) = (step s l).bind fun t => exec step t ls := rfl

theorem exec_cons_some :
    exec step s (l :: ls) = some u ↔ ∃ t, step s l = some t ∧ exec step t ls = some u := by
  rw [exec_cons, Option.bind_eq_some_iff]

theorem exec_append_some :
    exec step s (ls ++ ms) = some u ↔ ∃ t, exec step s ls = some t ∧ exec step t ms = some u := by
  induction ls generalizing s with
  | nil => simp
  | cons l ls ih =>
    simp only [List.cons_append, exec_cons_some, ih]
    constructor
    · rintro ⟨v, hv, t, ht, hu⟩
      exact ⟨t, ⟨v, hv, ht⟩, hu⟩
    · rintro ⟨t, ⟨v, hv, ht⟩, hu⟩
      exact ⟨v, hv, t, ht, hu⟩

theorem exec_singleton : exec step s [l] = step s l := by
  simp [exec_cons]

theorem exec_concat_some :
    exec step s (ls ++ [l]) = some u ↔ ∃ t, exec step s ls = some t ∧ step t l = some u := by
  simp only [exec_append_some, exec_singleton]

@[simp] theorem AllSteps.nil : AllSteps step cond s [] := trivial

theorem AllSteps.cons (ht : step s l = some t) (hl : cond s l) (hls : AllSteps step cond t ls) :
    AllSteps step cond s (l :: ls) :=
  ⟨hl, fun u hu => by cases ht.symm.trans hu; exact hls⟩

theorem AllSteps.append :
    AllSteps step cond s (ls ++ ms) ↔
      AllSteps step cond s ls ∧ ∀ t, exec step s ls = some t → AllSteps step cond t ms := by
  induction ls generalizing s with
  | nil => simp
  | cons l ls ih =>
    simp only [List.cons_append, AllSteps, ih, exec_cons_some]
    constructor
    · rintro ⟨h, hrest⟩
      refine ⟨⟨h, fun t ht => (hrest t ht).1⟩, ?_⟩
      rintro u ⟨t, ht, hu⟩
      exact (hrest t ht).2 u hu
    · rintro ⟨⟨h, hhead⟩, htail⟩
      exact ⟨h, fun t ht => ⟨hhead t ht, fun u hu => htail u ⟨t, ht, hu⟩⟩⟩

theorem AllSteps.of_forall {cond : Label → Prop} (h : ∀ l ∈ ls, cond l) :
    AllSteps step (fun _ l => cond l) s ls := by
  induction ls generalizing s with
  | nil => trivial
  | cons l ls ih =>
    exact ⟨h l List.mem_cons_self, fun t _ => ih fun m hm => h m (List.mem_cons_of_mem _ hm)⟩

/-- Under an invariant one condition on the steps may imply another. -/
theorem AllSteps.imp_of {cond' : State → Label → Prop} (h : AllSteps step cond s ls)
    (P : State → Prop) (himp : ∀ s l, P s → cond s l → cond' s l)
    (hstep : ∀ s l t, P s → step s l = some t → P t) (hs : P s) : AllSteps step cond' s ls := by
  induction ls generalizing s with
  | nil => trivial
  | cons l ls ih => exact ⟨himp s l hs h.1, fun t ht => ih (h.2 t ht) (hstep s l t hs ht)⟩

/-- Labels that break a condition on the steps break it at some state they reach. -/
theorem AllSteps.exists_not (h : ¬AllSteps step cond s ls) :
    ∃ ls₁ l ls₂ t, ls = ls₁ ++ l :: ls₂ ∧ exec step s ls₁ = some t ∧ ¬cond t l := by
  induction ls generalizing s with
  | nil => exact absurd trivial h
  | cons l ls ih =>
    by_cases hl : cond s l
    · obtain ⟨t, ht, hnot⟩ : ∃ t, step s l = some t ∧ ¬AllSteps step cond t ls := by
        by_contra hall
        simp only [not_exists, not_and, not_not] at hall
        exact h ⟨hl, hall⟩
      obtain ⟨ls₁, m, ls₂, v, rfl, hv, hm⟩ := ih hnot
      exact ⟨l :: ls₁, m, ls₂, v, rfl, exec_cons_some.mpr ⟨t, ht, hv⟩, hm⟩
    · exact ⟨[], l, ls, s, rfl, rfl, hl⟩

section Trace
variable {Obs : Type*} {obs : State → Label → List Obs}

@[simp] theorem trace_nil : trace step obs s [] = [] := rfl

theorem trace_cons (h : step s l = some t) :
    trace step obs s (l :: ls) = obs s l ++ trace step obs t ls := by
  simp only [trace, h, Option.map_some, Option.getD_some]

end Trace

/-! ## Rules for runs -/

/-- An invariant kept by the steps that meet a condition holds at the end of a run whose steps
all meet it. -/
theorem exec_invariant_of (P : State → Prop)
    (hstep : ∀ s l t, P s → cond s l → step s l = some t → P t) (hs : P s)
    (hall : AllSteps step cond s ls) (hrun : exec step s ls = some u) : P u := by
  induction ls generalizing s with
  | nil => cases hrun; exact hs
  | cons l ls ih =>
    obtain ⟨t, ht, hrest⟩ := exec_cons_some.mp hrun
    exact ih (hstep s l t hs hall.1 ht) (hall.2 t ht) hrest

theorem exec_invariant (P : State → Prop) (hstep : ∀ s l t, P s → step s l = some t → P t)
    (hs : P s) (hrun : exec step s ls = some u) : P u := by
  induction ls generalizing s with
  | nil => cases hrun; exact hs
  | cons l ls ih =>
    obtain ⟨t, ht, hrest⟩ := exec_cons_some.mp hrun
    exact ih (hstep s l t hs ht) hrest

/-- A property that a step keeps exactly when it meets a condition holds all along a run exactly
when every step of the run meets it. -/
theorem forall_prefix_iff_allSteps (P : State → Prop)
    (hstep : ∀ s l t, P s → step s l = some t → (P t ↔ cond s l))
    (hstuck : ∀ s l, step s l = none → cond s l) (hs : P s) :
    (∀ ls₁ ls₂ t, ls = ls₁ ++ ls₂ → exec step s ls₁ = some t → P t) ↔
      AllSteps step cond s ls := by
  induction ls generalizing s with
  | nil =>
    refine iff_of_true (fun ls₁ ls₂ t hls hrun => ?_) trivial
    obtain rfl := (List.append_eq_nil_iff.mp hls.symm).1
    cases hrun
    exact hs
  | cons l ls ih =>
    constructor
    · intro h
      refine ⟨?_, fun t ht => ?_⟩
      · cases ht : step s l with
        | none => exact hstuck s l ht
        | some t => exact (hstep s l t hs ht).mp (h [l] ls t rfl (exec_singleton.trans ht))
      · refine (ih (h [l] ls t rfl (exec_singleton.trans ht))).mp fun ls₁ ls₂ u hls hrun => ?_
        exact h (l :: ls₁) ls₂ u (by rw [hls, List.cons_append])
          (exec_cons_some.mpr ⟨t, ht, hrun⟩)
    · rintro ⟨hl, hrest⟩ ls₁ ls₂ u hls hrun
      cases ls₁ with
      | nil =>
        cases hrun
        exact hs
      | cons m ls₁ =>
        rw [List.cons_append, List.cons.injEq] at hls
        obtain ⟨rfl, hls⟩ := hls
        obtain ⟨t, ht, hrun⟩ := exec_cons_some.mp hrun
        exact (ih ((hstep s l t hs ht).mpr hl)).mpr (hrest t ht) ls₁ ls₂ u hls hrun

/-- A relation between the labels performed so far and the state reached. -/
theorem exec_trace (P : List Label → State → Prop)
    (hstep : ∀ ls s l t, P ls s → step s l = some t → P (ls ++ [l]) t) (hs : P [] s)
    (hrun : exec step s ls = some u) : P ls u := by
  induction ls using List.reverseRecOn generalizing u with
  | nil => cases hrun; exact hs
  | append_singleton ls l ih =>
    obtain ⟨t, ht, hl⟩ := exec_concat_some.mp hrun
    exact hstep ls t l u (ih ht) hl

/-- A relation between what has been observed so far and the state reached. -/
theorem trace_invariant {Obs : Type*} {obs : State → Label → List Obs}
    (P : List Obs → State → Prop)
    (hstep : ∀ os s l t, P os s → step s l = some t → P (os ++ obs s l) t) (hs : P [] s)
    (hrun : exec step s ls = some u) : P (trace step obs s ls) u := by
  suffices h : ∀ os s, P os s → exec step s ls = some u → P (os ++ trace step obs s ls) u from
    h [] s hs hrun
  clear hs hrun
  induction ls with
  | nil =>
    intro os s hs hrun
    cases hrun
    rwa [trace_nil, List.append_nil]
  | cons l ls ih =>
    intro os s hs hrun
    obtain ⟨t, ht, hrest⟩ := exec_cons_some.mp hrun
    rw [trace_cons ht, ← List.append_assoc]
    exact ih (os ++ obs s l) t (hstep os s l t hs ht) hrest

/-- A preorder that every step respects, under an invariant, relates the ends of every run. -/
theorem exec_rel (P : State → Prop) (R : State → State → Prop) (hrefl : ∀ s, R s s)
    (htrans : ∀ s t u, R s t → R t u → R s u) (hinv : ∀ s l t, P s → step s l = some t → P t)
    (hstep : ∀ s l t, P s → step s l = some t → R s t) (hs : P s)
    (hrun : exec step s ls = some u) : R s u := by
  induction ls generalizing s with
  | nil => cases hrun; exact hrefl u
  | cons l ls ih =>
    obtain ⟨t, ht, hrest⟩ := exec_cons_some.mp hrun
    exact htrans s t u (hstep s l t hs ht) (ih (hinv s l t hs ht) hrest)

end ThreatScanner.Transition
