import ThreatScanner.Library.Html

/-!
# Escaping for HTML

`esc` of `app.js`: five replacements of the whole string, one after another. They come to one pass
over the string (`esc_eq`). One pass that decodes the five references alone reads the string back
(`unesc_esc`); so does a parser of HTML that takes it for the value of an attribute, but for the
newlines and the null characters.
-/

namespace ThreatScanner.Frontend

open Html

def esc (value : DomString) : DomString :=
  replaceAll apostrophe (units "&#039;") <|
  replaceAll quotationMark (units "&quot;") <|
  replaceAll (unit '>') (units "&gt;") <|
  replaceAll (unit '<') (units "&lt;") <|
  replaceAll ampersand (units "&amp;") value

/-! ## One pass -/

def escUnit (c : CodeUnit) : DomString :=
  if c = ampersand then units "&amp;"
  else if c = unit '<' then units "&lt;"
  else if c = unit '>' then units "&gt;"
  else if c = quotationMark then units "&quot;"
  else if c = apostrophe then units "&#039;"
  else [c]

/-- The code units that `esc` replaces. -/
def escaped : List CodeUnit := [ampersand, unit '<', unit '>', quotationMark, apostrophe]

theorem forall_escaped {p : CodeUnit → Prop} : (∀ c ∈ escaped, p c) ↔
    p ampersand ∧ p (unit '<') ∧ p (unit '>') ∧ p quotationMark ∧ p apostrophe := by
  simp [escaped]

theorem escUnit_of_not_mem {c : CodeUnit} (h : c ∉ escaped) : escUnit c = [c] := by
  simp only [escaped, List.mem_cons, List.not_mem_nil, or_false, not_or] at h
  obtain ⟨hampersand, hlt, hgt, hquotation, hapostrophe⟩ := h
  rw [escUnit, if_neg hampersand, if_neg hlt, if_neg hgt, if_neg hquotation, if_neg hapostrophe]

theorem esc_singleton (c : CodeUnit) : esc [c] = escUnit c := by
  by_cases hc : c ∈ escaped
  · have hescaped : ∀ c ∈ escaped, esc [c] = escUnit c := forall_escaped.mpr (by decide)
    exact hescaped c hc
  · rw [escUnit_of_not_mem hc]
    simp only [escaped, List.mem_cons, List.not_mem_nil, or_false, not_or] at hc
    simp [esc, replaceAll, hc]

theorem esc_append (s t : DomString) : esc (s ++ t) = esc s ++ esc t := by
  simp only [esc, replaceAll_append]

theorem esc_cons (c : CodeUnit) (s : DomString) : esc (c :: s) = escUnit c ++ esc s := by
  rw [← List.singleton_append, esc_append, esc_singleton]

/-- The later replacements leave what the earlier ones wrote as it is. -/
theorem esc_eq (s : DomString) : esc s = s.flatMap escUnit := by
  induction s with
  | nil => rfl
  | cons c s ih => rw [esc_cons, ih, List.flatMap_cons]

/-- Of the code units that `esc` replaces, only the ampersand is left. -/
theorem not_mem_esc {c : CodeUnit} (hc : c ∈ escaped) (hne : c ≠ ampersand) (s : DomString) :
    c ∉ esc s := by
  have hescaped : ∀ d ∈ escaped, (escUnit d).all (fun c => c = ampersand ∨ c ∉ escaped) = true :=
    forall_escaped.mpr (by decide)
  rw [esc_eq, List.mem_flatMap]
  rintro ⟨d, -, hd⟩
  by_cases hmem : d ∈ escaped
  · rcases of_decide_eq_true (List.all_eq_true.mp (hescaped d hmem) c hd) with h | h
    · exact hne h
    · exact h hc
  · rw [escUnit_of_not_mem hmem, List.mem_singleton] at hd
    exact hmem (hd ▸ hc)

theorem quotationMark_not_mem_esc (s : DomString) : quotationMark ∉ esc s :=
  not_mem_esc (by decide) (by decide) s

/-! ## Reading it back -/

theorem escUnit_text {c : CodeUnit} (hreturn : c ≠ carriageReturn) (hfeed : c ≠ lineFeed) :
    escUnit c ≠ [] ∧ carriageReturn ∉ escUnit c ∧ lineFeed ∉ escUnit c := by
  have hescaped : ∀ c ∈ escaped,
      escUnit c ≠ [] ∧ carriageReturn ∉ escUnit c ∧ lineFeed ∉ escUnit c :=
    forall_escaped.mpr (by decide)
  by_cases hmem : c ∈ escaped
  · exact hescaped c hmem
  · rw [escUnit_of_not_mem hmem, List.mem_singleton, List.mem_singleton]
    exact ⟨List.cons_ne_nil c [], Ne.symm hreturn, Ne.symm hfeed⟩

theorem esc_cons_of_not_mem {c : CodeUnit} (h : c ∉ escaped) (s : DomString) :
    esc (c :: s) = c :: esc s := by
  rw [esc_cons, escUnit_of_not_mem h, List.singleton_append]

theorem normalizeNewlines_esc (after : Bool) (s : DomString) :
    normalizeNewlines after (esc s) = esc (normalizeNewlines after s) := by
  have hreturn : carriageReturn ∉ escaped := by decide
  have hfeed : lineFeed ∉ escaped := by decide
  induction s generalizing after with
  | nil => rfl
  | cons c s ih =>
    by_cases hc : c = carriageReturn
    · subst hc
      rw [esc_cons_of_not_mem hreturn, normalizeNewlines, if_pos rfl, normalizeNewlines,
        if_pos rfl, esc_cons_of_not_mem hfeed, ih]
    by_cases hc' : c = lineFeed
    · subst hc'
      rw [esc_cons_of_not_mem hfeed, normalizeNewlines, if_neg hc, normalizeNewlines, if_neg hc]
      split
      · exact ih false
      · rw [esc_cons_of_not_mem hfeed, ih]
    · obtain ⟨hne, hreturn', hfeed'⟩ := escUnit_text hc hc'
      rw [esc_cons, normalizeNewlines_text hne hreturn' hfeed',
        normalizeNewlines_cons_of_ne hc hc', esc_cons, ih]

/-- Every reference that `esc` writes stands for the code unit it replaced. -/
theorem decode_escUnit (refs : NamedReferences) (c : CodeUnit) (s : DomString) :
    decode refs (escUnit c ++ s) = decodeUnit c :: decode refs s := by
  have hnamed (name : DomString) {chars : DomString}
      (hname : name.all isAlphanumeric = true)
      (hexpansion : refs.expansion (name ++ [semicolon]) = some chars) :
      decode refs (ampersand :: (name ++ [semicolon]) ++ s) = chars ++ decode refs s := by
    have href : reference refs (name ++ [semicolon] ++ s) = some (chars, name.length + 1) := by
      rw [List.append_assoc]
      exact reference_named hname hexpansion s
    rw [List.cons_append, decode_ampersand_some href]
    simp
  by_cases hmem : c ∈ escaped
  · simp only [escaped, List.mem_cons, List.not_mem_nil, or_false] at hmem
    obtain rfl | rfl | rfl | rfl | rfl := hmem
    · exact hnamed (units "amp") (by decide) refs.amp
    · exact hnamed (units "lt") (by decide) refs.lt
    · exact hnamed (units "gt") (by decide) refs.gt
    · exact hnamed (units "quot") (by decide) refs.quot
    · have href : reference refs (numberSign :: (units "039" ++ semicolon :: s)) =
          some (numericValue (digitsValue 10 (units "039")), 5) :=
        reference_decimal (by decide) (by decide) s
      exact decode_ampersand_some href
  · have hc : c ≠ ampersand := by
      rintro rfl
      exact hmem (by decide)
    rw [escUnit_of_not_mem hmem, List.singleton_append, decode_cons_of_ne hc]
    rfl

theorem decode_esc (refs : NamedReferences) (s : DomString) :
    decode refs (esc s) = s.map decodeUnit := by
  induction s with
  | nil => rfl
  | cons c s ih => rw [esc_cons, decode_escUnit, ih, List.map_cons]

/-! ## Decoding what was written -/

/-- The references that `esc` writes, each with the code unit it stands for. -/
def writtenReferences : List (DomString × CodeUnit) :=
  [(units "&amp;", ampersand), (units "&lt;", unit '<'), (units "&gt;", unit '>'),
   (units "&quot;", quotationMark), (units "&#039;", apostrophe)]

/-- One pass from the left that decodes these references and no others; the first code units are
those of a reference that is already decoded. -/
def unescFrom : Nat → DomString → DomString
  | _, [] => []
  | n + 1, _ :: cs => unescFrom n cs
  | 0, c :: cs =>
    match writtenReferences.find? fun r => r.1.isPrefixOf (c :: cs) with
    | some (reference, d) => d :: unescFrom (reference.length - 1) cs
    | none => c :: unescFrom 0 cs

def unesc (cs : DomString) : DomString := unescFrom 0 cs

theorem escUnit_mem {c : CodeUnit} (h : c ∈ escaped) : (escUnit c, c) ∈ writtenReferences := by
  have hescaped : ∀ c ∈ escaped, (escUnit c, c) ∈ writtenReferences :=
    forall_escaped.mpr (by decide)
  exact hescaped c h

/-- An ampersand is the first code unit of what was written for one code unit. -/
theorem escUnit_ampersand {c : CodeUnit} {before after : DomString}
    (h : escUnit c = before ++ ampersand :: after) : c ∈ escaped ∧ before = [] := by
  by_cases hmem : c ∈ escaped
  · have hescaped : ∀ c ∈ escaped, ampersand ∉ (escUnit c).tail := forall_escaped.mpr (by decide)
    refine ⟨hmem, ?_⟩
    cases before with
    | nil => rfl
    | cons d before =>
      refine absurd ?_ (hescaped c hmem)
      rw [h, List.cons_append, List.tail_cons]
      exact List.mem_append_right _ List.mem_cons_self
  · rw [escUnit_of_not_mem hmem] at h
    have hc : ampersand ∈ [c] := h ▸ List.mem_append_right _ List.mem_cons_self
    rw [List.mem_singleton] at hc
    exact absurd (hc ▸ by decide) hmem

theorem exists_reference_of_ampersand {s before after : DomString}
    (h : esc s = before ++ ampersand :: after) :
    ∃ r ∈ writtenReferences, r.1 <+: ampersand :: after := by
  induction s generalizing before with
  | nil => simp [esc, replaceAll] at h
  | cons c s ih =>
    rw [esc_cons, List.append_eq_append_iff] at h
    rcases h with ⟨middle, hbefore, hrest⟩ | ⟨middle, hunit, hrest⟩
    · exact ih hrest
    · cases middle with
      | nil =>
        have hhead : esc s = [] ++ ampersand :: after := hrest.symm
        exact ih hhead
      | cons d middle =>
        rw [List.cons_append, List.cons.injEq] at hrest
        obtain ⟨rfl, hafter⟩ := hrest
        obtain ⟨hmem, rfl⟩ := escUnit_ampersand hunit
        refine ⟨_, escUnit_mem hmem, ?_⟩
        rw [hunit, hafter, List.nil_append, ← List.cons_append]
        exact List.prefix_append _ _

theorem unesc_cons_of_ne {c : CodeUnit} (h : c ≠ ampersand) (cs : DomString) :
    unesc (c :: cs) = c :: unesc cs := by
  have hnone : (writtenReferences.find? fun r => r.1.isPrefixOf (c :: cs)) = none := by
    refine List.find?_eq_none.mpr fun r hr hprefix => h ?_
    have hhead : ∀ r ∈ writtenReferences, r.1.head? = some ampersand := by decide
    obtain ⟨rest, hrest⟩ := List.head?_eq_some_iff.mp (hhead r hr)
    rw [hrest, List.isPrefixOf_iff_prefix] at hprefix
    exact (List.cons_prefix_cons.mp hprefix).1.symm
  rw [unesc, unescFrom, hnone]
  rfl

theorem unesc_escUnit (c : CodeUnit) (s : DomString) :
    unesc (escUnit c ++ s) = c :: unesc s := by
  by_cases hmem : c ∈ escaped
  · have hescaped : ∀ c ∈ escaped, unesc (escUnit c ++ s) = c :: unesc s :=
      forall_escaped.mpr ⟨rfl, rfl, rfl, rfl, rfl⟩
    exact hescaped c hmem
  · have hc : c ≠ ampersand := by
      rintro rfl
      exact hmem (by decide)
    rw [escUnit_of_not_mem hmem, List.singleton_append, unesc_cons_of_ne hc]

theorem unesc_esc (s : DomString) : unesc (esc s) = s := by
  induction s with
  | nil => rfl
  | cons c s ih => rw [esc_cons, unesc_escUnit, ih]

/-- What `esc` writes has no markup in it but its own references, and they can be read back. -/
theorem esc_faithful :
    (∀ s : DomString, (∀ c ∈ [unit '<', unit '>', quotationMark, apostrophe], c ∉ esc s) ∧
      (∀ before after, esc s = before ++ ampersand :: after →
        ∃ r ∈ writtenReferences, r.1 <+: ampersand :: after) ∧
      unesc (esc s) = s) ∧
    Function.Injective esc := by
  refine ⟨fun s => ⟨fun c hc => ?_, fun _ _ => exists_reference_of_ampersand, unesc_esc s⟩,
    Function.LeftInverse.injective unesc_esc⟩
  have hne : c ≠ ampersand := by
    rintro rfl
    exact absurd hc (by decide)
  exact not_mem_esc (List.mem_cons_of_mem _ hc) hne s

end ThreatScanner.Frontend
