import ThreatScanner.Library.Transition

/-!
# Polling by timer

A client starts jobs and polls the latest one by a timer, whose number it keeps in one variable. A
start waits for its job, ends the timer that the variable names, polls once and sets the next timer
when that poll is over; a poll may end the timer for good. Other steps of the client do nothing
here.

A timer that is live and not the one of the variable is stray: no step can end it any more. None is
stray exactly when every first poll is over before a timer is live again, as it is when one job is
started at a time.
-/

namespace ThreatScanner

open Transition

@[ext]
structure Polling where
  /-- The starts that wait for their job. -/
  waiting : Nat
  /-- Those whose first poll is under way. -/
  opening : Nat
  current : Option Nat
  live : List Nat
  next : Nat

namespace Polling

inductive Label where
  | click
  | giveUp
  | start
  | settle
  | drop
deriving DecidableEq

def init : Polling := ⟨0, 0, none, [], 0⟩

/-- The timer of the variable is ended. -/
def clear (p : Polling) : Polling :=
  { p with live := p.live.filter fun timer => p.current ≠ some timer }

def enabled (p : Polling) : Label → Bool
  | .click | .drop => true
  | .giveUp | .start => decide (0 < p.waiting)
  | .settle => decide (0 < p.opening)

def after (p : Polling) : Label → Polling
  | .click => { p with waiting := p.waiting + 1 }
  | .giveUp => { p with waiting := p.waiting - 1 }
  | .start => { p.clear with waiting := p.waiting - 1, opening := p.opening + 1 }
  | .settle =>
    { p with
      opening := p.opening - 1
      current := some p.next
      live := p.live ++ [p.next]
      next := p.next + 1 }
  | .drop => { p.clear with current := none }

def step (p : Polling) (l : Label) : Option Polling :=
  if p.enabled l then some (p.after l) else none

variable {p q : Polling} {l : Label} {timer : Nat}

theorem step_eq_some : p.step l = some q ↔ p.enabled l = true ∧ p.after l = q := by
  simp [step]

theorem mem_clear : timer ∈ p.clear.live ↔ timer ∈ p.live ∧ p.current ≠ some timer := by
  simp [clear]

/-! ## Stray timers -/

/-- The numbers of the timers are those given out so far. -/
structure Numbered (p : Polling) : Prop where
  live : ∀ timer ∈ p.live, timer < p.next
  current : ∀ timer, p.current = some timer → timer < p.next

theorem numbered_init : Numbered init := ⟨by rintro _ ⟨⟩, by rintro _ ⟨⟩⟩

theorem Numbered.step (h : p.Numbered) (hstep : p.step l = some q) : q.Numbered := by
  obtain ⟨-, rfl⟩ := step_eq_some.mp hstep
  cases l with
  | click => exact ⟨h.live, h.current⟩
  | giveUp => exact ⟨h.live, h.current⟩
  | start => exact ⟨fun timer ht => h.live timer (mem_clear.mp ht).1, h.current⟩
  | settle =>
    constructor
    · intro timer ht
      rcases List.mem_append.mp ht with ht | ht
      · exact Nat.lt_succ_of_lt (h.live timer ht)
      · exact List.mem_singleton.mp ht ▸ Nat.lt_succ_self _
    · rintro timer ⟨⟩
      exact Nat.lt_succ_self _
  | drop => exact ⟨fun timer ht => h.live timer (mem_clear.mp ht).1, by rintro _ ⟨⟩⟩

/-- A timer that is live and that the variable does not name. -/
def Stray (p : Polling) (timer : Nat) : Prop := timer ∈ p.live ∧ p.current ≠ some timer

/-- Nothing ends a stray timer. -/
theorem Stray.step (h : p.Stray timer) (hp : p.Numbered) (hstep : p.step l = some q) :
    q.Stray timer := by
  obtain ⟨-, rfl⟩ := step_eq_some.mp hstep
  cases l with
  | click => exact h
  | giveUp => exact h
  | start => exact ⟨mem_clear.mpr h, h.2⟩
  | settle =>
    refine ⟨List.mem_append_left _ h.1, fun heq => ?_⟩
    exact absurd (hp.live timer h.1) (by rw [← Option.some.inj heq]; exact Nat.lt_irrefl _)
  | drop => exact ⟨mem_clear.mpr h, by rintro ⟨⟩⟩

/-- No timer is stray after a step exactly when it does not set one beside another. -/
theorem no_stray_iff (h : ∀ timer, ¬p.Stray timer) (hp : p.Numbered) (hstep : p.step l = some q) :
    (∀ timer, ¬q.Stray timer) ↔ (l = .settle → p.live = []) := by
  have hcleared : ∀ timer, timer ∉ p.clear.live := fun timer ht => h timer (mem_clear.mp ht)
  obtain ⟨-, rfl⟩ := step_eq_some.mp hstep
  cases l with
  | click => exact iff_of_true h (by rintro ⟨⟩)
  | giveUp => exact iff_of_true h (by rintro ⟨⟩)
  | start => exact iff_of_true (fun timer ht => hcleared timer ht.1) (by rintro ⟨⟩)
  | settle =>
    constructor
    · intro hq _
      refine List.eq_nil_iff_forall_not_mem.mpr fun timer ht => ?_
      refine hq timer ⟨List.mem_append_left _ ht, fun heq => ?_⟩
      exact absurd (hp.live timer ht) (by rw [← Option.some.inj heq]; exact Nat.lt_irrefl _)
    · rintro hnil timer ⟨ht, hne⟩
      have hlive : timer ∈ p.live ++ [p.next] := ht
      rw [hnil rfl, List.nil_append, List.mem_singleton] at hlive
      exact hne (congrArg some hlive.symm)
  | drop => exact iff_of_true (fun timer ht => hcleared timer ht.1) (by rintro ⟨⟩)

/-! ## One start at a time -/

/-- At most one start is under way, no timer is live while its first poll is, and there is at most
one, which the variable names. -/
structure Tidy (p : Polling) : Prop where
  one : p.waiting + p.opening ≤ 1
  closed : 0 < p.opening → p.live = []
  named : ∀ timer ∈ p.live, p.current = some timer
  single : p.live.length ≤ 1

theorem tidy_init : Tidy init := ⟨Nat.zero_le 1, fun _ => rfl, by rintro _ ⟨⟩, Nat.zero_le 1⟩

theorem Tidy.no_stray (h : p.Tidy) : ¬p.Stray timer := fun ht => ht.2 (h.named timer ht.1)

theorem Tidy.clear_live (h : p.Tidy) : p.clear.live = [] :=
  List.eq_nil_iff_forall_not_mem.mpr fun _ ht => h.no_stray (mem_clear.mp ht)

theorem Tidy.not_mem_clear (h : p.Tidy) : timer ∉ p.clear.live := by
  rw [h.clear_live]
  exact List.not_mem_nil

theorem Tidy.length_clear (h : p.Tidy) : p.clear.live.length ≤ 1 := by
  rw [h.clear_live]
  exact Nat.zero_le 1

theorem Tidy.step (h : p.Tidy) (hclick : l = .click → p.waiting + p.opening = 0)
    (hstep : p.step l = some q) : q.Tidy := by
  obtain ⟨henabled, rfl⟩ := step_eq_some.mp hstep
  cases l with
  | click =>
    refine ⟨?_, h.closed, h.named, h.single⟩
    have hidle := hclick rfl
    show p.waiting + 1 + p.opening ≤ 1
    omega
  | giveUp =>
    refine ⟨?_, h.closed, h.named, h.single⟩
    have hone := h.one
    show p.waiting - 1 + p.opening ≤ 1
    omega
  | start =>
    refine ⟨?_, fun _ => h.clear_live, fun timer ht => absurd ht h.not_mem_clear, h.length_clear⟩
    have hone := h.one
    have hwaiting : 0 < p.waiting := of_decide_eq_true henabled
    show p.waiting - 1 + (p.opening + 1) ≤ 1
    omega
  | settle =>
    have hone := h.one
    have hopening : 0 < p.opening := of_decide_eq_true henabled
    have hset : p.live ++ [p.next] = [p.next] := by rw [h.closed hopening, List.nil_append]
    refine ⟨?_, fun hpos => ?_, fun timer ht => ?_, ?_⟩
    · show p.waiting + (p.opening - 1) ≤ 1
      omega
    · have hpos : 0 < p.opening - 1 := hpos
      omega
    · have hlive : timer ∈ p.live ++ [p.next] := ht
      rw [hset, List.mem_singleton] at hlive
      exact congrArg some hlive.symm
    · show (p.live ++ [p.next]).length ≤ 1
      rw [hset]
      exact Nat.le_refl 1
  | drop =>
    exact ⟨h.one, fun _ => h.clear_live, fun timer ht => absurd ht h.not_mem_clear, h.length_clear⟩

/-! ## Clients -/

/-- What the client does is what the labels of its steps say. -/
def Describes {State Event : Type} (act : State → Event → Option State) (view : State → Polling)
    (labels : State → Event → List Label) : Prop :=
  ∀ s e t, act s e = some t → exec step (view s) (labels s e) = some (view t)

theorem Numbered.exec {ls : List Label} (h : p.Numbered) (hrun : exec Polling.step p ls = some q) :
    q.Numbered :=
  exec_invariant Numbered (fun _ _ _ => Numbered.step) h hrun

theorem Stray.exec {ls : List Label} (h : p.Stray timer) (hp : p.Numbered)
    (hrun : exec Polling.step p ls = some q) : q.Stray timer :=
  (exec_invariant (fun p => p.Numbered ∧ p.Stray timer)
    (fun _ _ _ h hstep => ⟨h.1.step hstep, h.2.step h.1 hstep⟩) ⟨hp, h⟩ hrun).2

theorem next_exec {ls : List Label} (hset : .settle ∉ ls) (hrun : exec step p ls = some q) :
    q.next = p.next ∧ ((∀ timer, ¬p.Stray timer) → ∀ timer, ¬q.Stray timer) := by
  have hall : AllSteps step (fun _ l => l ≠ .settle) p ls := by
    refine AllSteps.of_forall fun l hl => ?_
    rintro rfl
    exact hset hl
  refine exec_invariant_of (fun r => r.next = p.next ∧ ((∀ timer, ¬p.Stray timer) →
    ∀ timer, ¬r.Stray timer)) ?_ ⟨rfl, id⟩ hall hrun
  rintro r l t ⟨hnext, hnone⟩ hl hstep
  obtain ⟨-, rfl⟩ := step_eq_some.mp hstep
  cases l with
  | settle => exact absurd rfl hl
  | click => exact ⟨hnext, hnone⟩
  | giveUp => exact ⟨hnext, hnone⟩
  | start => exact ⟨hnext, fun h timer ht => hnone h timer (mem_clear.mp ht.1)⟩
  | drop => exact ⟨hnext, fun h timer ht => hnone h timer (mem_clear.mp ht.1)⟩

/-- Steps of which at most the last sets a timer leave none stray exactly when that timer is the
only one. -/
theorem no_stray_exec_iff {ls : List Label} (hlast : .settle ∉ ls.dropLast)
    (h : ∀ timer, ¬p.Stray timer) (hp : p.Numbered) (hrun : exec step p ls = some q) :
    (∀ timer, ¬q.Stray timer) ↔ q.next = p.next ∨ q.live = [p.next] := by
  by_cases hset : .settle ∈ ls
  · obtain ⟨ls, l, rfl⟩ : ∃ ls' l, ls = ls' ++ [l] :=
      ⟨_, _, (List.dropLast_concat_getLast (List.ne_nil_of_mem hset)).symm⟩
    rw [List.dropLast_concat] at hlast
    obtain ⟨r, hr, hstep⟩ := exec_concat_some.mp hrun
    obtain rfl : .settle = l := by simpa [hlast] using hset
    obtain ⟨hnext, hnone⟩ := next_exec hlast hr
    rw [no_stray_iff (hnone h) (hp.exec hr) hstep]
    obtain ⟨-, rfl⟩ := step_eq_some.mp hstep
    have hlive : (r.after .settle).live = r.live ++ [p.next] := by rw [← hnext]; rfl
    have hmore : (r.after .settle).next ≠ p.next := by
      rw [← hnext]
      exact Nat.succ_ne_self _
    simp [hlive, hmore]
  · obtain ⟨hnext, hnone⟩ := next_exec hset hrun
    exact iff_of_true (hnone h) (.inl hnext)

section Client
variable {State Event : Type} {act : State → Event → Option State} {view : State → Polling}
variable {labels : State → Event → List Label} {s t : State} {es : List Event}

theorem Describes.numbered (H : Describes act view labels) (hs : (view s).Numbered)
    (hrun : exec act s es = some t) : (view t).Numbered :=
  exec_invariant (fun s => (view s).Numbered) (fun _ _ _ h hstep => h.exec (H _ _ _ hstep)) hs hrun

/-- A timer that is stray stays so in every continuation of the run. -/
theorem Describes.stray (H : Describes act view labels) (hs : (view s).Numbered)
    (h : (view s).Stray timer) (hrun : exec act s es = some t) : (view t).Stray timer :=
  (exec_invariant (fun s => (view s).Numbered ∧ (view s).Stray timer)
    (fun _ _ _ h hstep => ⟨h.1.exec (H _ _ _ hstep), h.2.exec h.1 (H _ _ _ hstep)⟩)
    ⟨hs, h⟩ hrun).2

/-- A timer that an event sets is the only one. -/
def SetsAlone (act : State → Event → Option State) (view : State → Polling) (s : State)
    (e : Event) : Prop :=
  ∀ t, act s e = some t → (view t).next = (view s).next ∨ (view t).live = [(view s).next]

/-- A run has no stray timer in any of its states exactly when each timer that it sets is the only
one then. -/
theorem Describes.no_stray_iff (H : Describes act view labels)
    (hlast : ∀ s e, .settle ∉ (labels s e).dropLast) (hs : view s = init) :
    (∀ es₁ es₂ t, es = es₁ ++ es₂ → exec act s es₁ = some t → ∀ timer, ¬(view t).Stray timer) ↔
      AllSteps act (SetsAlone act view) s es := by
  have hnumbered : (view s).Numbered := hs ▸ numbered_init
  have hnone : ∀ timer, ¬(view s).Stray timer := fun timer => hs ▸ tidy_init.no_stray
  rw [← forall_prefix_iff_allSteps
    (fun s => (view s).Numbered ∧ ∀ timer, ¬(view s).Stray timer) ?_ ?_ ⟨hnumbered, hnone⟩]
  · refine forall_congr' fun es₁ => forall_congr' fun es₂ => forall_congr' fun t =>
      imp_congr_right fun _ => ⟨fun h hrun => ⟨H.numbered hnumbered hrun, h hrun⟩,
        fun h hrun => (h hrun).2⟩
  · intro s e t hP hstep
    have hrun := H s e t hstep
    rw [and_iff_right (hP.1.exec hrun), no_stray_exec_iff (hlast s e) hP.2 hP.1 hrun]
    exact ⟨fun h u hu => by cases hstep.symm.trans hu; exact h, fun h => h t hstep⟩
  · exact fun s e hstep t ht => absurd (hstep.symm.trans ht) (Option.some_ne_none t).symm

theorem Describes.tidy (H : Describes act view labels) (hs : view s = init)
    (hclick : ∀ s e, .click ∈ labels s e → labels s e = [.click])
    (hall : AllSteps act (fun s e => .click ∈ labels s e →
      (view s).waiting + (view s).opening = 0) s es)
    (hrun : exec act s es = some t) : (view t).Tidy := by
  refine exec_invariant_of (fun s => (view s).Tidy) ?_ (hs ▸ tidy_init) hall hrun
  intro s e t h hone hstep
  have hlabels := H s e t hstep
  by_cases hmem : .click ∈ labels s e
  · rw [hclick s e hmem, exec_singleton] at hlabels
    exact h.step (fun _ => hone hmem) hlabels
  · have hall : AllSteps step (fun _ l => l ≠ .click) (view s) (labels s e) := by
      refine AllSteps.of_forall fun l hl => ?_
      rintro rfl
      exact hmem hl
    exact exec_invariant_of Tidy (fun p l q h hne hstep => h.step (absurd · hne) hstep) h hall
      hlabels

end Client

/-! ## What a client may rely on -/

/-- What is said of the timers of a client, whose runs begin at `s₀`. `idle` says that an event does
not start a job while another start is under way. -/
structure TimersKept {State Event : Type} (act : State → Event → Option State)
    (view : State → Polling) (idle : State → Event → Prop) (s₀ : State) : Prop where
  /-- A stray timer stays so in every continuation of the run. -/
  stray : ∀ es s, exec act s₀ es = some s → ∀ timer, (view s).Stray timer →
    ∀ es' t, exec act s es' = some t → (view t).Stray timer
  /-- A run has none in its states exactly when each timer that it sets is the only one then. -/
  none_iff : ∀ es, (∀ es₁ es₂ t, es = es₁ ++ es₂ → exec act s₀ es₁ = some t →
    ∀ timer, ¬(view t).Stray timer) ↔ AllSteps act (SetsAlone act view) s₀ es
  /-- Where no starts overlap, there is at most one timer, and the variable names it. -/
  tidy : ∀ es t, AllSteps act idle s₀ es → exec act s₀ es = some t → (view t).Tidy

/-- What an event of a client does. -/
def shapes : List (List Label) :=
  [[], [.click], [.giveUp], [.start], [.drop], [.settle], [.drop, .settle]]

theorem settle_notMem_of_shapes {ls : List Label} (h : ls ∈ shapes) : .settle ∉ ls.dropLast := by
  revert ls
  decide

theorem eq_click_of_shapes {ls : List Label} (h : ls ∈ shapes) (hclick : .click ∈ ls) :
    ls = [.click] := by
  revert ls
  decide

theorem Describes.timersKept {State Event : Type} {act : State → Event → Option State}
    {view : State → Polling} {labels : State → Event → List Label} {idle : State → Event → Prop}
    {s₀ : State} (H : Describes act view labels) (hlabels : ∀ s e, labels s e ∈ shapes)
    (hs : view s₀ = init)
    (hidle : ∀ s e, idle s e → .click ∈ labels s e → (view s).waiting + (view s).opening = 0) :
    TimersKept act view idle s₀ where
  stray _ _ hrun _ ht _ _ hrun' := H.stray (H.numbered (hs ▸ numbered_init) hrun) ht hrun'
  none_iff _ := H.no_stray_iff (fun s e => settle_notMem_of_shapes (hlabels s e)) hs
  tidy _ _ hall hrun := H.tidy hs (fun s e => eq_click_of_shapes (hlabels s e))
    (hall.imp_of (fun _ => True) (fun s e _ h => hidle s e h) (fun _ _ _ _ _ => trivial) trivial)
    hrun

end Polling

end ThreatScanner
