import Mathlib.Data.List.Count

/-!
# Backtracking regular expressions

Expressions over classes of symbols, with counted greedy repetition of a class, alternatives tried
from left to right, capturing groups and word boundaries. `run` lists the ways in which an
expression matches at a place, in the order in which a backtracking matcher finds them, so its head
is the match. `finditer` collects the matches of a text from left to right, each beginning after
the one before it; it is for expressions that do not match the empty text.

`minCount` bounds from below how many symbols of a kind there are in what is matched.
-/

namespace ThreatScanner

/-- A regular expression over the classes `σ`. -/
inductive Regex (σ : Type*) where
  | empty
  | one (c : σ)
  | rep (c : σ) (lo : Nat) (hi : Option Nat)
  | seq (r s : Regex σ)
  | alt (r s : Regex σ)
  | group (r : Regex σ)
  | boundary
deriving DecidableEq

/-- One way to match: what is taken, what the groups capture and what is left. -/
structure Parse (α : Type*) where
  taken : List α
  captures : List (Option (List α))
  rest : List α

/-- A match in a text. -/
structure Found (α : Type*) where
  start : Nat
  taken : List α
  captures : List (Option (List α))
deriving DecidableEq

namespace Regex

variable {σ α : Type*}

/-- The capturing groups, in the order of their opening brackets. -/
def groups : Regex σ → List (Regex σ)
  | seq r s | alt r s => groups r ++ groups s
  | group r => r :: groups r
  | _ => []

/-- What is matched has at least this many symbols of the classes that `solid` selects. -/
def minCount (solid : σ → Bool) : Regex σ → Nat
  | empty | boundary => 0
  | one c => if solid c then 1 else 0
  | rep c lo _ => if solid c then lo else 0
  | seq r s => minCount solid r + minCount solid s
  | alt r s => min (minCount solid r) (minCount solid s)
  | group r => minCount solid r

/-- The runs of symbols in `p` at the head of a text, between `lo` and `hi` of them, longest
first. -/
def greedy (p : α → Bool) : Nat → Option Nat → List α → List (List α × List α)
  | lo, _, [] => if lo = 0 then [([], [])] else []
  | lo, hi, c :: cs =>
    (if p c ∧ hi ≠ some 0 then
      (greedy p (lo - 1) (hi.map (· - 1)) cs).map fun t => (c :: t.1, t.2)
    else []) ++ if lo = 0 then [([], c :: cs)] else []

section Match
variable (mem : σ → α → Bool) (word : α → Bool)

/-- The matches at the head of a text, `prev` being the symbol before it. -/
def run : Regex σ → Option α → List α → List (Parse α)
  | empty, _, cs => [⟨[], [], cs⟩]
  | one _, _, [] => []
  | one c, _, a :: cs => if mem c a then [⟨[a], [], cs⟩] else []
  | rep c lo hi, _, cs => (greedy (mem c) lo hi cs).map fun t => ⟨t.1, [], t.2⟩
  | seq r s, prev, cs =>
    (run r prev cs).flatMap fun m =>
      (run s (m.taken.getLast? <|> prev) m.rest).map fun m' =>
        ⟨m.taken ++ m'.taken, m.captures ++ m'.captures, m'.rest⟩
  | alt r s, prev, cs =>
    ((run r prev cs).map fun m =>
        { m with captures := m.captures ++ List.replicate s.groups.length none }) ++
      (run s prev cs).map fun m =>
        { m with captures := List.replicate r.groups.length none ++ m.captures }
  | group r, prev, cs =>
    (run r prev cs).map fun m => { m with captures := some m.taken :: m.captures }
  | boundary, prev, cs =>
    if prev.any word ≠ cs.head?.any word then [⟨[], [], cs⟩] else []

/-- The matches from position `pos` on, the next `skip` symbols being those of the last match. -/
def finditerFrom (r : Regex σ) : Nat → Nat → Option α → List α → List (Found α)
  | _, _, _, [] => []
  | skip + 1, pos, _, c :: cs => finditerFrom r skip (pos + 1) (some c) cs
  | 0, pos, prev, c :: cs =>
    match (run mem word r prev (c :: cs)).head? with
    | some m =>
      ⟨pos, m.taken, m.captures⟩ :: finditerFrom r (m.taken.length - 1) (pos + 1) (some c) cs
    | none => finditerFrom r 0 (pos + 1) (some c) cs

/-- The matches in a text, from left to right. -/
def finditer (r : Regex σ) (cs : List α) : List (Found α) := finditerFrom mem word r 0 0 none cs

/-- The text with `new` for each match, the next `skip` symbols being those of the last match. -/
def subFrom (r : Regex σ) (new : List α) : Nat → Option α → List α → List α
  | _, _, [] => []
  | skip + 1, _, c :: cs => subFrom r new skip (some c) cs
  | 0, prev, c :: cs =>
    match (run mem word r prev (c :: cs)).head? with
    | some m => new ++ subFrom r new (m.taken.length - 1) (some c) cs
    | none => c :: subFrom r new 0 (some c) cs

/-- The text with `new` in the place of each match. -/
def sub (r : Regex σ) (new cs : List α) : List α := subFrom mem word r new 0 none cs

variable {mem : σ → α → Bool} {word : α → Bool} {r : Regex σ} {prev : Option α} {cs : List α}

theorem mem_greedy {p : α → Bool} {lo : Nat} {hi : Option Nat} {t : List α × List α}
    (h : t ∈ greedy p lo hi cs) : lo ≤ t.1.length ∧ ∀ a ∈ t.1, p a = true := by
  induction cs generalizing lo hi t with
  | nil =>
    simp only [greedy] at h
    split at h
    · next hlo =>
      cases List.mem_singleton.mp h
      exact ⟨Nat.le_of_eq hlo, List.forall_mem_nil _⟩
    · cases h
  | cons c cs ih =>
    simp only [greedy, List.mem_append] at h
    rcases h with h | h
    · split at h
      · next hc =>
        obtain ⟨t', ht', rfl⟩ := List.mem_map.mp h
        obtain ⟨hlen, hall⟩ := ih ht'
        refine ⟨?_, List.forall_mem_cons.mpr ⟨hc.1, hall⟩⟩
        rw [List.length_cons]
        omega
      · cases h
    · split at h
      · next hlo =>
        cases List.mem_singleton.mp h
        exact ⟨Nat.le_of_eq hlo, List.forall_mem_nil _⟩
      · cases h

/-- A match has the symbols that the expression asks for. -/
theorem minCount_le {solid : σ → Bool} {q : α → Bool}
    (hsolid : ∀ c a, solid c = true → mem c a = true → q a = true) {m : Parse α}
    (h : m ∈ run mem word r prev cs) : r.minCount solid ≤ m.taken.countP q := by
  induction r generalizing prev cs m with
  | empty => exact Nat.zero_le _
  | boundary => exact Nat.zero_le _
  | one c =>
    cases cs with
    | nil => cases h
    | cons a cs =>
      simp only [run] at h
      split at h
      · next ha =>
        cases List.mem_singleton.mp h
        simp only [minCount]
        split
        · next hc => simp [hsolid c a hc ha]
        · exact Nat.zero_le _
      · cases h
  | rep c lo hi =>
    obtain ⟨t, ht, rfl⟩ := List.mem_map.mp h
    obtain ⟨hlen, hall⟩ := mem_greedy ht
    simp only [minCount]
    split
    · next hc =>
      have hcount : t.1.countP q = t.1.length :=
        List.countP_eq_length.mpr fun a ha => hsolid c a hc (hall a ha)
      rwa [hcount]
    · exact Nat.zero_le _
  | seq r s ihr ihs =>
    obtain ⟨m₁, h₁, h⟩ := List.mem_flatMap.mp h
    obtain ⟨m₂, h₂, rfl⟩ := List.mem_map.mp h
    rw [List.countP_append]
    exact Nat.add_le_add (ihr h₁) (ihs h₂)
  | alt r s ihr ihs =>
    rcases List.mem_append.mp h with h | h
    · obtain ⟨m', hm', rfl⟩ := List.mem_map.mp h
      have hcount := ihr hm'
      exact Nat.le_trans (Nat.min_le_left _ _) hcount
    · obtain ⟨m', hm', rfl⟩ := List.mem_map.mp h
      have hcount := ihs hm'
      exact Nat.le_trans (Nat.min_le_right _ _) hcount
  | group r ih =>
    obtain ⟨m', hm', rfl⟩ := List.mem_map.mp h
    have hcount := ih hm'
    exact hcount

/-- There is one capture for each group. -/
theorem length_captures {m : Parse α} (h : m ∈ run mem word r prev cs) :
    m.captures.length = r.groups.length := by
  induction r generalizing prev cs m with
  | empty =>
    cases List.mem_singleton.mp h
    rfl
  | boundary =>
    simp only [run] at h
    split at h
    · cases List.mem_singleton.mp h
      rfl
    · cases h
  | one c =>
    cases cs with
    | nil => cases h
    | cons a cs =>
      simp only [run] at h
      split at h
      · cases List.mem_singleton.mp h
        rfl
      · cases h
  | rep c lo hi =>
    obtain ⟨t, _, rfl⟩ := List.mem_map.mp h
    rfl
  | seq r s ihr ihs =>
    obtain ⟨m₁, h₁, h⟩ := List.mem_flatMap.mp h
    obtain ⟨m₂, h₂, rfl⟩ := List.mem_map.mp h
    rw [groups, List.length_append, List.length_append, ihr h₁, ihs h₂]
  | alt r s ihr ihs =>
    rcases List.mem_append.mp h with h | h
    · obtain ⟨m', hm', rfl⟩ := List.mem_map.mp h
      rw [groups, List.length_append, List.length_append, List.length_replicate, ihr hm']
    · obtain ⟨m', hm', rfl⟩ := List.mem_map.mp h
      rw [groups, List.length_append, List.length_append, List.length_replicate, ihs hm']
  | group r ih =>
    obtain ⟨m', hm', rfl⟩ := List.mem_map.mp h
    rw [groups, List.length_cons, List.length_cons, ih hm']

/-- Every match that is found is one at its place in the text. -/
theorem exists_run_of_mem_finditerFrom {skip pos : Nat} {f : Found α}
    (h : f ∈ finditerFrom mem word r skip pos prev cs) :
    ∃ before rest, cs = before ++ rest ∧ f.start = pos + before.length ∧
      ∃ m ∈ run mem word r (before.getLast? <|> prev) rest,
        f.taken = m.taken ∧ f.captures = m.captures := by
  induction cs generalizing skip pos prev with
  | nil => cases skip <;> cases h
  | cons c cs ih =>
    have later {skip : Nat} (h : f ∈ finditerFrom mem word r skip (pos + 1) (some c) cs) :
        ∃ before rest, c :: cs = before ++ rest ∧ f.start = pos + before.length ∧
          ∃ m ∈ run mem word r (before.getLast? <|> prev) rest,
            f.taken = m.taken ∧ f.captures = m.captures := by
      obtain ⟨before, rest, rfl, hstart, m, hm, hfound⟩ := ih h
      refine ⟨c :: before, rest, rfl, ?_, m, ?_, hfound⟩
      · rw [hstart, List.length_cons]
        omega
      · cases before <;> exact hm
    cases skip with
    | succ skip => exact later h
    | zero =>
      simp only [finditerFrom] at h
      split at h
      · next m hm =>
        rcases List.mem_cons.mp h with rfl | h
        · exact ⟨[], c :: cs, rfl, rfl, m, List.mem_of_head? hm, rfl, rfl⟩
        · exact later h
      · exact later h

end Match

/-! ## What is taken and captured -/

section Captures
variable {mem : σ → α → Bool} {word : α → Bool} {r : Regex σ} {prev : Option α} {cs g : List α}
  {m : Parse α}

end Captures

end Regex

end ThreatScanner
