import Mathlib.Data.List.Nodup
import Mathlib.Order.Nat

/-!
# Objects that several names refer to

A program that builds objects and writes to them is a function on a heap: a reference is the place
of an object, a new object gets the next place, and a write changes one place. What a program does
not write to stays, whatever it builds beside it.
-/

namespace ThreatScanner

variable {α : Type*}

/-- The place of an object. -/
abbrev Ref := Nat

/-- The objects built so far. -/
structure Heap (α : Type*) where
  objects : List α

namespace Heap

/-- The number of objects. -/
def size (heap : Heap α) : Nat := heap.objects.length

/-- A new object. -/
def alloc (heap : Heap α) (a : α) : Ref × Heap α := (heap.size, ⟨heap.objects ++ [a]⟩)

/-- A write to one object. -/
def modify (heap : Heap α) (r : Ref) (f : α → α) : Heap α := ⟨heap.objects.modify r f⟩

@[simp] theorem size_alloc (heap : Heap α) (a : α) : (heap.alloc a).2.size = heap.size + 1 := by
  simp [alloc, size]

@[simp] theorem size_modify (heap : Heap α) (r : Ref) (f : α → α) :
    (heap.modify r f).size = heap.size := by
  simp [modify, size]

section Read
variable [Inhabited α]

/-- The object at a place. -/
def read (heap : Heap α) (r : Ref) : α := heap.objects[r]?.getD default

/-- Everything in `heap` is in `heap'` as it was. -/
def Keeps (heap heap' : Heap α) : Prop :=
  heap.size ≤ heap'.size ∧ ∀ r < heap.size, heap'.read r = heap.read r

theorem Keeps.refl (heap : Heap α) : heap.Keeps heap := ⟨le_rfl, fun _ _ => rfl⟩

theorem Keeps.trans {heap₁ heap₂ heap₃ : Heap α} (h₁ : heap₁.Keeps heap₂)
    (h₂ : heap₂.Keeps heap₃) : heap₁.Keeps heap₃ :=
  ⟨h₁.1.trans h₂.1, fun r hr => (h₂.2 r (hr.trans_le h₁.1)).trans (h₁.2 r hr)⟩

theorem read_alloc_old {heap : Heap α} {r : Ref} (a : α) (h : r < heap.size) :
    (heap.alloc a).2.read r = heap.read r := by
  rw [alloc, read, List.getElem?_append_left h, read]

theorem read_alloc_new (heap : Heap α) (a : α) : (heap.alloc a).2.read heap.size = a := by
  simp [alloc, read, size]

theorem keeps_alloc (heap : Heap α) (a : α) : heap.Keeps (heap.alloc a).2 :=
  ⟨by simp, fun _ hr => read_alloc_old a hr⟩

theorem read_modify_self {heap : Heap α} {r : Ref} (f : α → α) (h : r < heap.size) :
    (heap.modify r f).read r = f (heap.read r) := by
  have hr : r < heap.objects.length := h
  simp [modify, read, List.getElem?_eq_getElem hr]

theorem read_modify_ne {heap : Heap α} {r r' : Ref} (f : α → α) (h : r' ≠ r) :
    (heap.modify r f).read r' = heap.read r' := by
  simp [modify, read, h.symm]

theorem modify_congr {heap : Heap α} {r : Ref} {f g : α → α}
    (h : f (heap.read r) = g (heap.read r)) : heap.modify r f = heap.modify r g := by
  refine congrArg Heap.mk (List.ext_getElem? fun i => ?_)
  rw [List.getElem?_modify, List.getElem?_modify]
  split
  · next hi =>
    subst hi
    cases ha : heap.objects[r]? with
    | none => rfl
    | some a =>
      rw [read, ha, Option.getD_some] at h
      exact congrArg some h
  · rfl

/-! ## Building one object from each of a list of objects -/

/-- A loop that builds a new object from each of the old ones. -/
def allocEach (f : α → α) (heap : Heap α) : List Ref → List Ref × Heap α
  | [] => ([], heap)
  | r :: rs =>
    let (new, heap) := heap.alloc (f (heap.read r))
    let (news, heap) := allocEach f heap rs
    (new :: news, heap)

/-- What the loop builds: the old objects stay, the new ones are apart from them and from each
other, and each is what the loop's body makes of its old one. -/
structure BuiltFrom (f : α → α) (heap : Heap α) (rs news : List Ref) (heap' : Heap α) : Prop where
  keeps : heap.Keeps heap'
  fresh : ∀ r ∈ news, heap.size ≤ r ∧ r < heap'.size
  nodup : news.Nodup
  reads : news.map heap'.read = rs.map fun r => f (heap.read r)

theorem builtFrom_allocEach (f : α → α) (heap : Heap α) (rs : List Ref)
    (h : ∀ r ∈ rs, r < heap.size) :
    BuiltFrom f heap rs (allocEach f heap rs).1 (allocEach f heap rs).2 := by
  induction rs generalizing heap with
  | nil => exact ⟨.refl heap, nofun, List.nodup_nil, rfl⟩
  | cons r rs ih =>
    have hkeeps := keeps_alloc heap (f (heap.read r))
    have hsize := size_alloc heap (f (heap.read r))
    obtain ⟨hkept, hfresh, hnodup, hreads⟩ := ih (heap.alloc (f (heap.read r))).2 fun s hs =>
      (h s (List.mem_cons_of_mem _ hs)).trans_le hkeeps.1
    refine ⟨hkeeps.trans hkept, ?_, List.nodup_cons.mpr ⟨?_, hnodup⟩, ?_⟩
    · intro s hs
      rcases List.mem_cons.mp hs with rfl | hs
      · have hlt : heap.size + 1 ≤ _ := hsize ▸ hkept.1
        exact ⟨le_rfl, hlt⟩
      · exact ⟨hkeeps.1.trans (hfresh s hs).1, (hfresh s hs).2⟩
    · intro hmem
      have hle : heap.size + 1 ≤ heap.size := hsize ▸ (hfresh _ hmem).1
      exact absurd hle (Nat.not_succ_le_self _)
    · have hnew : (allocEach f (heap.alloc (f (heap.read r))).2 rs).2.read heap.size =
          f (heap.read r) :=
        (hkept.2 _ (hsize ▸ Nat.lt_succ_self _)).trans (read_alloc_new heap _)
      have hold : (rs.map fun s => f ((heap.alloc (f (heap.read r))).2.read s)) =
          rs.map fun s => f (heap.read s) :=
        List.map_congr_left fun s hs => by
          rw [read_alloc_old _ (h s (List.mem_cons_of_mem _ hs))]
      exact congrArg₂ List.cons hnew (hreads.trans hold)

/-! ## Writing to some of the objects -/

theorem read_foldl_modify (f : α → α) {heap : Heap α} {rs : List Ref} (hnodup : rs.Nodup)
    (hvalid : ∀ r ∈ rs, r < heap.size) (r : Ref) :
    (rs.foldl (fun heap r => heap.modify r f) heap).read r =
      if r ∈ rs then f (heap.read r) else heap.read r := by
  induction rs generalizing heap with
  | nil => rfl
  | cons s rs ih =>
    obtain ⟨hs, hnodup⟩ := List.nodup_cons.mp hnodup
    have hvalid' : ∀ r ∈ rs, r < (heap.modify s f).size := fun r hr => by
      rw [size_modify]
      exact hvalid r (List.mem_cons_of_mem _ hr)
    rw [List.foldl_cons, ih hnodup hvalid']
    by_cases hrs : r = s
    · subst hrs
      rw [if_neg hs, if_pos List.mem_cons_self, read_modify_self f (hvalid r List.mem_cons_self)]
    · simp only [read_modify_ne f hrs, List.mem_cons, hrs, false_or]

end Read

end Heap

end ThreatScanner
