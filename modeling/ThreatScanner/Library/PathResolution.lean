import Mathlib.Data.List.Infix

/-!
# Paths with parent components, by name and through a file system

A path is a list of components, names and `..`. Read by its names alone it leads from a directory
to `follow base cs`; `reduce cs` is its normal form, a number of steps up followed by names, and
`follow_eq` says where those lead. A file system without links (`FileTree`) looks every component
up (`FileTree.walk`), and where it finds something it is at the place the names give
(`FileTree.eq_follow_of_walk`).
-/

namespace ThreatScanner.PathResolution

variable {ν : Type*}

inductive Component (ν : Type*) where
  | up
  | name (n : ν)
deriving DecidableEq

/-- Where the components lead from the directory `base`. The root is its own parent. -/
def follow (base : List ν) : List (Component ν) → List ν
  | [] => base
  | .up :: cs => follow base.dropLast cs
  | .name n :: cs => follow (base ++ [n]) cs

/-- A path in normal form: steps up, then names. -/
structure Reduced (ν : Type*) where
  ups : Nat
  names : List ν

namespace Reduced

/-- One more component: a step up takes the last name back, if there is one. -/
def push (r : Reduced ν) : Component ν → Reduced ν
  | .name n => ⟨r.ups, r.names ++ [n]⟩
  | .up => if r.names.isEmpty then ⟨r.ups + 1, []⟩ else ⟨r.ups, r.names.dropLast⟩

/-- Where the normal form leads from the directory `base`. -/
def apply (r : Reduced ν) (base : List ν) : List ν :=
  base.take (base.length - r.ups) ++ r.names

theorem apply_push_name (r : Reduced ν) (base : List ν) (n : ν) :
    (r.push (.name n)).apply base = r.apply base ++ [n] := by
  simp only [push, apply, List.append_assoc]

theorem apply_push_up (r : Reduced ν) (base : List ν) :
    (r.push .up).apply base = (r.apply base).dropLast := by
  obtain ⟨ups, names⟩ := r
  rcases List.eq_nil_or_concat names with rfl | ⟨init, last, rfl⟩
  · simp only [push, apply, List.isEmpty_nil, if_true, List.append_nil]
    rw [List.dropLast_eq_take, List.take_take, List.length_take]
    congr 1
    omega
  · simp [push, apply]

end Reduced

def reduce (cs : List (Component ν)) : Reduced ν := cs.foldl Reduced.push ⟨0, []⟩

theorem follow_apply (base : List ν) (cs : List (Component ν)) (r : Reduced ν) :
    follow (r.apply base) cs = (cs.foldl Reduced.push r).apply base := by
  induction cs generalizing r with
  | nil => rfl
  | cons c cs ih =>
    cases c with
    | up => rw [follow, ← r.apply_push_up, ih, List.foldl_cons]
    | name n => rw [follow, ← r.apply_push_name, ih, List.foldl_cons]

/-- A path leads where its normal form does. -/
theorem follow_eq (base : List ν) (cs : List (Component ν)) :
    follow base cs = (reduce cs).apply base := by
  have hstart : Reduced.apply ⟨0, []⟩ base = base := by
    rw [Reduced.apply, Nat.sub_zero, List.take_length, List.append_nil]
  rw [reduce, ← follow_apply, hstart]

theorem follow_append (base : List ν) (cs ds : List (Component ν)) :
    follow base (cs ++ ds) = follow (follow base cs) ds := by
  induction cs generalizing base with
  | nil => rfl
  | cons c cs ih => cases c <;> simp only [List.cons_append, follow, ih]

theorem follow_names (base names : List ν) : follow base (names.map .name) = base ++ names := by
  induction names generalizing base with
  | nil => simp [follow]
  | cons n names ih => simp [follow, ih]

/-- A path leads from `base` to a place below it exactly when it goes down again over the
components of `base` that its steps up have left. -/
theorem prefix_apply_iff (r : Reduced ν) (base : List ν) :
    base <+: r.apply base ↔ base.drop (base.length - r.ups) <+: r.names := by
  have hsplit := List.take_append_drop (base.length - r.ups) base
  have hiff : base.take (base.length - r.ups) ++ base.drop (base.length - r.ups) <+:
      base.take (base.length - r.ups) ++ r.names ↔
      base.drop (base.length - r.ups) <+: r.names := List.prefix_append_right_inj _
  rw [hsplit] at hiff
  exact hiff

/-! ## File systems without links -/

inductive Kind where
  | file
  | dir
deriving DecidableEq

/-- The entries of a file system, by the names that lead to them from the root. -/
structure FileTree (ν : Type*) where
  kind : List ν → Option Kind
  root : kind [] = some .dir
  parent : ∀ place n, (kind (place ++ [n])).isSome → kind place = some .dir

namespace FileTree

variable (tree : FileTree ν)

/-- Looks the components up one after the other, each in the directory reached so far. -/
def walk (place : List ν) : List (Component ν) → Option (List ν)
  | [] => if (tree.kind place).isSome then some place else none
  | .up :: cs => if tree.kind place = some .dir then walk place.dropLast cs else none
  | .name n :: cs => if tree.kind place = some .dir then walk (place ++ [n]) cs else none

theorem eq_follow_of_walk {tree : FileTree ν} {place found : List ν} {cs : List (Component ν)}
    (h : tree.walk place cs = some found) : found = follow place cs := by
  induction cs generalizing place with
  | nil =>
    simp only [walk] at h
    split at h <;> cases h
    rfl
  | cons c cs ih =>
    cases c with
    | up | name =>
      simp only [walk] at h
      split at h
      · exact ih h
      · cases h

theorem isSome_of_append {place names : List ν} (h : (tree.kind (place ++ names)).isSome) :
    (tree.kind place).isSome := by
  induction names using List.reverseRecOn with
  | nil => simpa using h
  | append_singleton names n ih =>
    rw [← List.append_assoc] at h
    exact ih (by rw [tree.parent _ n h]; rfl)

/-- What the file system has is found by its own names. -/
theorem walk_names (place names : List ν) (h : (tree.kind (place ++ names)).isSome) :
    tree.walk place (names.map .name) = some (place ++ names) := by
  induction names generalizing place with
  | nil =>
    rw [List.append_nil] at h ⊢
    exact if_pos h
  | cons n names ih =>
    have h' : (tree.kind (place ++ [n] ++ names)).isSome := by simpa using h
    have hdir : tree.kind place = some .dir := tree.parent place n (tree.isSome_of_append h')
    rw [List.map_cons, walk, if_pos hdir, ih _ h']
    simp

end FileTree

end ThreatScanner.PathResolution
