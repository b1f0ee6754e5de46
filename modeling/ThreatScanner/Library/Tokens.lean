import Mathlib.Data.List.Basic

/-!
# The tokens of a text

A text is cut at every separator, the pieces are trimmed, and those worth keeping are its tokens.
When an empty piece is not worth keeping, it makes no difference whether texts are cut one by one
or joined by a separator first (`tokens_intercalate`), and a token is its own only token
(`tokens_of_mem`).
-/

namespace ThreatScanner

variable {α : Type*} {sep : α → Bool} {trim : List α → List α} {keep : List α → Bool}
  {c : α} {as bs piece token : List α} {texts : List (List α)}

def tokens (sep : α → Bool) (trim : List α → List α) (keep : List α → Bool) (cs : List α) :
    List (List α) :=
  ((cs.splitOnP sep).map trim).filter keep

theorem tokens_append_cons (hc : sep c) :
    tokens sep trim keep (as ++ c :: bs) = tokens sep trim keep as ++ tokens sep trim keep bs := by
  simp only [tokens, List.splitOnP_append_cons as bs hc, List.map_append, List.filter_append]

theorem tokens_of_no_separator (h : ∀ c ∈ as, sep c = false) :
    tokens sep trim keep as = [trim as].filter keep := by
  rw [tokens, List.splitOnP_eq_singleton h, List.map_singleton]

theorem tokens_nil (hnil : keep (trim []) = false) : tokens sep trim keep [] = [] := by
  rw [tokens_of_no_separator (by simp), List.filter_singleton, hnil]
  rfl

theorem tokens_intercalate (hc : sep c) (hnil : keep (trim []) = false) :
    tokens sep trim keep ([c].intercalate texts) = texts.flatMap (tokens sep trim keep) := by
  induction texts with
  | nil => exact tokens_nil hnil
  | cons text texts ih =>
    cases texts with
    | nil => simp [List.intercalate]
    | cons next texts =>
      rw [List.intercalate_cons_cons, List.append_assoc, List.singleton_append,
        tokens_append_cons hc, ih]
      exact List.flatMap_cons.symm

/-- There is no separator in a piece. -/
theorem sep_of_mem_splitOnP (h : piece ∈ as.splitOnP sep) (hc : c ∈ piece) : sep c = false := by
  induction as generalizing piece with
  | nil =>
    rw [List.splitOnP_nil, List.mem_singleton] at h
    rw [h] at hc
    cases hc
  | cons a as ih =>
    rw [List.splitOnP_cons_eq_if_modifyHead] at h
    split at h
    · rcases List.mem_cons.mp h with rfl | h
      · cases hc
      · exact ih h hc
    · next ha =>
      obtain ⟨first, rest, hsplit⟩ := List.exists_cons_of_ne_nil (List.splitOnP_ne_nil sep as)
      rw [hsplit] at h ih
      rcases List.mem_cons.mp h with rfl | h
      · rcases List.mem_cons.mp hc with rfl | hc
        · exact Bool.eq_false_iff.mpr ha
        · exact ih List.mem_cons_self hc
      · exact ih (List.mem_cons_of_mem _ h) hc

/-- A token is its own only token. -/
theorem tokens_of_mem (hsubset : ∀ cs, trim cs ⊆ cs) (htrim : ∀ cs, trim (trim cs) = trim cs)
    (h : token ∈ tokens sep trim keep as) : tokens sep trim keep token = [token] := by
  obtain ⟨hmem, hkeep⟩ := List.mem_filter.mp h
  obtain ⟨piece, hpiece, rfl⟩ := List.mem_map.mp hmem
  have hsep : ∀ c ∈ trim piece, sep c = false := fun c hc =>
    sep_of_mem_splitOnP hpiece (hsubset piece hc)
  rw [tokens_of_no_separator hsep, htrim, List.filter_singleton, hkeep]
  rfl

end ThreatScanner
