import ThreatScanner.Python.Query

/-!
# Relative URLs

`urljoin` reads a URL against the one of the page that it stands in. A reference that names neither
another scheme nor an authority stays on the host of the page, and what it says of parent
directories is worked out before it is written.
-/

namespace ThreatScanner

/-- A step of the loop over the segments. -/
def resolveSegment (resolved : List (List Char)) (segment : List Char) : List (List Char) :=
  if segment = ['.', '.'] then resolved.dropLast
  else if segment = ['.'] then resolved
  else resolved ++ [segment]

def isDots (segment : List Char) : Bool := segment = ['.'] || segment = ['.', '.']

/-- `resolved_path`. -/
def resolveSegments (segments : List (List Char)) : List (List Char) :=
  let resolved := segments.foldl resolveSegment []
  if segments.getLast?.any isDots then resolved ++ [[]] else resolved

/-- `segments[1:-1] = filter(None, segments[1:-1])`. -/
def filterInner : List (List Char) → List (List Char)
  | [] => []
  | first :: rest => first :: (rest.dropLast.filter (· ≠ []) ++ rest.getLast?.toList)

/-- `segments`, for a path that is read against another one. -/
def joinSegments (basePath path : List Char) : List (List Char) :=
  let parts := basePath.splitOn '/'
  let parts := if parts.getLast? = some [] then parts else parts.dropLast
  if path.head? = some '/' then path.splitOn '/' else filterInner (parts ++ path.splitOn '/')

/-- `'/'.join(resolved_path) or '/'`. -/
def joinPath (basePath path : List Char) : List Char :=
  let text := ['/'].intercalate (resolveSegments (joinSegments basePath path))
  if text = [] then ['/'] else text

section Join
variable [UnicodeData]

end Join

/-! ## What is left of the segments -/

section Segments
variable {segments resolved : List (List Char)} {segment basePath path : List Char} {c : Char}

theorem mem_splitOn_clear {sep : Char} {s : List Char} (h : segment ∈ s.splitOn sep) :
    ∀ c ∈ segment, c ∈ s ∧ c ≠ sep := by
  induction s generalizing segment with
  | nil =>
    intro c hc
    rw [List.splitOn_nil, List.mem_singleton] at h
    rw [h] at hc
    cases hc
  | cons d s ih =>
    intro c hc
    rw [List.splitOn_cons_eq_if_modifyHead] at h
    split at h
    · rcases List.mem_cons.mp h with rfl | h
      · cases hc
      · exact (ih h c hc).imp_left (List.mem_cons_of_mem d)
    · next hd =>
      have hd : d ≠ sep := by simpa using hd
      cases hsplit : s.splitOn sep with
      | nil => exact absurd hsplit (List.splitOn_ne_nil sep s)
      | cons first rest =>
        rw [hsplit, List.modifyHead_cons] at h
        rcases List.mem_cons.mp h with rfl | h
        · rcases List.mem_cons.mp hc with rfl | hc
          · exact ⟨List.mem_cons_self, hd⟩
          · exact (ih (hsplit ▸ List.mem_cons_self) c hc).imp_left (List.mem_cons_of_mem d)
        · exact (ih (hsplit ▸ List.mem_cons_of_mem _ h) c hc).imp_left (List.mem_cons_of_mem d)

/-- The last piece of a joined text is what stands behind the last separator. -/
theorem behindLast_intercalate {sep : Char} {init : List (List Char)} {last : List Char}
    (h : sep ∉ last) : behindLast sep ([sep].intercalate (init ++ [last])) = last := by
  have hcut : ∀ s : List Char, behindLast sep (s ++ sep :: last) = last := fun s => by
    have hkeep : (s ++ [sep]).rdropWhile (· ≠ sep) = s ++ [sep] :=
      List.rdropWhile_concat_neg _ _ _ (by simp)
    rw [List.append_cons, ← hkeep]
    exact behindLast_append h
  cases init with
  | nil => rw [List.nil_append, List.intercalate_singleton, behindLast_of_not_mem h]
  | cons first init =>
    have hjoin : ∃ s, [sep].intercalate (first :: init ++ [last]) = s ++ sep :: last := by
      induction init generalizing first with
      | nil => exact ⟨first, by simp [List.intercalate_cons_cons]⟩
      | cons second init ih =>
        obtain ⟨s, hs⟩ := ih second
        refine ⟨first ++ sep :: s, ?_⟩
        rw [List.cons_append, List.cons_append, List.intercalate_cons_cons, ← List.cons_append,
          hs, List.append_assoc, List.append_assoc, List.singleton_append, List.cons_append]
    obtain ⟨s, hs⟩ := hjoin
    rw [hs, hcut]

theorem getLast?_splitOn (sep : Char) (s : List Char) :
    (s.splitOn sep).getLast? = some (behindLast sep s) := by
  obtain ⟨init, last, hsplit⟩ : ∃ init last, s.splitOn sep = init ++ [last] := by
    rcases List.eq_nil_or_concat (s.splitOn sep) with hnil | hconcat
    · exact absurd hnil (List.splitOn_ne_nil sep s)
    · simpa using hconcat
  have hlast : sep ∉ last := by
    intro hmem
    have hpiece : last ∈ s.splitOn sep := hsplit ▸ List.mem_append_right init List.mem_cons_self
    exact (mem_splitOn_clear hpiece sep hmem).2 rfl
  have hjoin : s = [sep].intercalate (init ++ [last]) := by
    rw [← hsplit, List.intercalate_splitOn]
  have hbehind : behindLast sep s = last := by
    rw [hjoin]
    exact behindLast_intercalate hlast
  rw [hsplit, hbehind, List.getLast?_concat]

/-! ## The joined path -/

/-- A segment is of one of the paths. -/
theorem mem_joinSegments (h : segment ∈ joinSegments basePath path) :
    segment ∈ basePath.splitOn '/' ∨ segment ∈ path.splitOn '/' := by
  have hinner : ∀ segments : List (List Char), segment ∈ filterInner segments →
      segment ∈ segments := by
    intro segments h
    cases segments with
    | nil => cases h
    | cons first rest =>
      rcases List.mem_cons.mp h with rfl | h
      · exact List.mem_cons_self
      apply List.mem_cons_of_mem
      rcases List.mem_append.mp h with h | h
      · exact List.mem_of_mem_dropLast (List.mem_filter.mp h).1
      · exact List.mem_of_mem_getLast? (Option.mem_toList.mp h)
  rw [joinSegments] at h
  split at h
  · exact .inr h
  · refine (List.mem_append.mp (hinner _ h)).imp_left fun hmem => ?_
    split at hmem
    · exact hmem
    · exact List.mem_of_mem_dropLast hmem

theorem mem_foldl_resolve {start : List (List Char)}
    (h : segment ∈ segments.foldl resolveSegment start) :
    segment ∈ start ∨ segment ∈ segments ∧ isDots segment = false := by
  induction segments generalizing start with
  | nil => exact .inl h
  | cons first rest ih =>
    rcases ih h with hmem | ⟨hmem, hdots⟩
    · rw [resolveSegment] at hmem
      split at hmem
      · exact .inl (List.mem_of_mem_dropLast hmem)
      split at hmem
      · exact .inl hmem
      rcases List.mem_append.mp hmem with hmem | hmem
      · exact .inl hmem
      · rw [List.mem_singleton.mp hmem]
        refine .inr ⟨List.mem_cons_self, ?_⟩
        simp [isDots, *]
    · exact .inr ⟨List.mem_cons_of_mem first hmem, hdots⟩

/-- No segment of dots is left, and no other is new. -/
theorem mem_resolveSegments (h : segment ∈ resolveSegments segments) :
    isDots segment = false ∧ (segment = [] ∨ segment ∈ segments) := by
  have hfold : segment ∈ segments.foldl resolveSegment [] →
      isDots segment = false ∧ (segment = [] ∨ segment ∈ segments) := fun h => by
    rcases mem_foldl_resolve h with h | ⟨hmem, hdots⟩
    · cases h
    · exact ⟨hdots, .inr hmem⟩
  rw [resolveSegments] at h
  split at h
  · rcases List.mem_append.mp h with h | h
    · exact hfold h
    · rw [List.mem_singleton.mp h]
      exact ⟨rfl, .inl rfl⟩
  · exact hfold h

/-- The last segment stays the last unless it is of dots. -/
theorem resolveSegments_concat (segments : List (List Char)) (last : List Char) :
    ∃ resolved, resolveSegments (segments ++ [last]) =
      resolved ++ [if isDots last then [] else last] := by
  rw [resolveSegments, List.getLast?_concat, Option.any_some, List.foldl_concat]
  cases hdots : isDots last with
  | true => exact ⟨_, rfl⟩
  | false =>
    have hno : last ≠ ['.', '.'] ∧ last ≠ ['.'] := by
      constructor <;> rintro rfl <;> cases hdots
    refine ⟨segments.foldl resolveSegment [], ?_⟩
    rw [resolveSegment, if_neg hno.1, if_neg hno.2]
    rfl

theorem exists_joinSegments (basePath path : List Char) :
    ∃ segments, joinSegments basePath path = segments ++ [behindLast '/' path] := by
  have hpath : ∃ init, path.splitOn '/' = init ++ [behindLast '/' path] :=
    List.getLast?_eq_some_iff.mp (getLast?_splitOn '/' path)
  obtain ⟨init, hinit⟩ := hpath
  rw [joinSegments]
  split
  · exact ⟨init, hinit⟩
  · rw [hinit, ← List.append_assoc]
    generalize (if (basePath.splitOn '/').getLast? = some [] then basePath.splitOn '/'
      else (basePath.splitOn '/').dropLast) ++ init = front
    cases front with
    | nil => exact ⟨[], rfl⟩
    | cons first rest =>
      refine ⟨first :: rest.filter (· ≠ []), ?_⟩
      rw [List.cons_append, filterInner, List.dropLast_concat, List.getLast?_concat]
      rfl

/-- What the segments of a joined path are made of. -/
theorem resolved_clear (h : segment ∈ resolveSegments (joinSegments basePath path)) :
    isDots segment = false ∧ ∀ c ∈ segment, c ≠ '/' ∧ (c ∈ basePath ∨ c ∈ path) := by
  obtain ⟨hdots, rfl | hmem⟩ := mem_resolveSegments h
  · exact ⟨hdots, fun c hc => absurd hc List.not_mem_nil⟩
  · refine ⟨hdots, fun c hc => ?_⟩
    rcases mem_joinSegments hmem with hmem | hmem
    · exact ⟨(mem_splitOn_clear hmem c hc).2, .inl (mem_splitOn_clear hmem c hc).1⟩
    · exact ⟨(mem_splitOn_clear hmem c hc).2, .inr (mem_splitOn_clear hmem c hc).1⟩

theorem exists_resolved (basePath path : List Char) :
    ∃ resolved, resolveSegments (joinSegments basePath path) =
      resolved ++ [if isDots (behindLast '/' path) then [] else behindLast '/' path] := by
  obtain ⟨segments, hsegments⟩ := exists_joinSegments basePath path
  rw [hsegments]
  exact resolveSegments_concat segments _

theorem mem_joinPath (h : c ∈ joinPath basePath path) : c = '/' ∨ c ∈ basePath ∨ c ∈ path := by
  rw [joinPath] at h
  split at h
  · exact .inl (List.mem_singleton.mp h)
  · rcases mem_intercalate h with h | ⟨segment, hsegment, hc⟩
    · exact .inl (List.mem_singleton.mp h)
    · exact .inr ((resolved_clear hsegment).2 c hc).2

/-- A last segment without parameters stays without. -/
theorem behindLast_joinPath (h : c ∉ behindLast '/' path) :
    c ∉ behindLast '/' (joinPath basePath path) := by
  obtain ⟨resolved, hresolved⟩ := exists_resolved basePath path
  have hlast : '/' ∉ (if isDots (behindLast '/' path) then [] else behindLast '/' path) ∧
      c ∉ (if isDots (behindLast '/' path) then [] else behindLast '/' path) := by
    split
    · exact ⟨List.not_mem_nil, List.not_mem_nil⟩
    · exact ⟨not_mem_behindLast, h⟩
  rw [joinPath]
  split
  · exact List.not_mem_nil
  · rw [hresolved, behindLast_intercalate hlast.1]
    exact hlast.2

end Segments

/-! ## References on a page -/

/-- The parts of a URL have no separators of each other. -/
structure ParseResult.IsClear (p : ParseResult) : Prop where
  clear : '?' ∉ p.fullPath ∧ '#' ∉ p.fullPath ∧ '#' ∉ p.query
  params : '/' ∉ p.params
  last : ';' ∉ behindLast '/' p.path
  safe : ∀ c ∈ p.fullPath ++ p.query ++ p.fragment, isUnsafe c = false

/-- Parameters are found again behind the path that they were taken from. -/
theorem splitParams_part {path params : List Char} (hlast : ';' ∉ behindLast '/' path)
    (hparams : '/' ∉ params) : splitParams (path ++ part ';' params) = (path, params) := by
  rw [part]
  split
  · next hnil => rw [List.append_nil, splitParams, if_neg hlast, hnil]
  · have hsegment : '/' ∉ behindLast '/' path ++ ';' :: params := by
      intro hmem
      rcases List.mem_append.mp hmem with hmem | hmem
      · exact not_mem_behindLast hmem
      · exact hparams ((List.mem_cons.mp hmem).resolve_left (by decide))
    have hpath : path.rdropWhile (· ≠ '/') ++ behindLast '/' path = path :=
      List.rdropWhile_append_rtakeWhile
    have hwhole : path ++ ';' :: params =
        path.rdropWhile (· ≠ '/') ++ (behindLast '/' path ++ ';' :: params) := by
      rw [← List.append_assoc, hpath]
    have hkeep : (path ++ ';' :: params).rdropWhile (· ≠ '/') = path.rdropWhile (· ≠ '/') := by
      have hreverse : ∀ c ∈ (behindLast '/' path ++ ';' :: params).reverse,
          decide (c ≠ '/') = true := all_ne fun hmem => hsegment (List.mem_reverse.mp hmem)
      rw [hwhole, List.rdropWhile, List.reverse_append, List.dropWhile_append_of_pos hreverse]
      exact List.rdropWhile_idempotent _ _
    rw [splitParams, hkeep, hwhole, behindLast_append hsegment, if_pos (by simp),
      before_append hlast, behind_append hlast, hpath]

section Web
variable [UnicodeData] {scheme url base : List Char} {b u p : ParseResult}

/-- `urlunparse` puts a slash between the authority and a path without one. -/
def rootPath (path : List Char) : List Char := if path.head? = some '/' then path else '/' :: path

omit [UnicodeData] in
theorem mem_rootPath {path : List Char} {c : Char} (h : c ∈ rootPath path) :
    c = '/' ∨ c ∈ path := by
  rw [rootPath] at h
  split at h
  · exact .inr h
  · exact List.mem_cons.mp h

omit [UnicodeData] in
theorem behindLast_rootPath (path : List Char) :
    behindLast '/' (rootPath path) = behindLast '/' path := by
  rw [rootPath]
  split
  · rfl
  · rw [behindLast, behindLast, List.rtakeWhile, List.rtakeWhile, List.reverse_cons,
      List.takeWhile_append]
    split
    · next hall =>
      have hwhole : path.reverse.takeWhile (· ≠ '/') = path.reverse :=
        (List.takeWhile_prefix _).eq_of_length hall
      rw [hwhole]
      simp
    · rfl

/-- A path that is joined to that of a page makes a web URL again. -/
theorem ParseResult.IsWeb.join (hb : b.IsWeb) (hu : u.IsClear) : ParseResult.IsWeb {
    b with
    path := rootPath (joinPath b.path u.path)
    params := u.params
    query := u.query
    fragment := u.fragment } := by
  have hfull : ∀ c ∈ rootPath (joinPath b.path u.path) ++ part ';' u.params,
      c = '/' ∨ c = ';' ∨ c ∈ b.fullPath ∨ c ∈ u.fullPath := by
    intro c hc
    rcases List.mem_append.mp hc with hc | hc
    · rcases mem_rootPath hc with hc | hc
      · exact .inl hc
      rcases mem_joinPath hc with hc | hc | hc
      · exact .inl hc
      · exact .inr (.inr (.inl (List.mem_append_left _ hc)))
      · exact .inr (.inr (.inr (List.mem_append_left _ hc)))
    · rcases mem_part hc with hsep | hmem
      · exact .inr (.inl hsep)
      · exact .inr (.inr (.inr (List.mem_append_right _ hc)))
  have hclear : ∀ d : Char, d ≠ '/' → d ≠ ';' → d ∉ b.fullPath → d ∉ u.fullPath →
      d ∉ rootPath (joinPath b.path u.path) ++ part ';' u.params := by
    intro d hslash hsemi hd hd' hmem
    rcases hfull d hmem with h | h | h | h
    · exact hslash h
    · exact hsemi h
    · exact hd h
    · exact hd' h
  refine {
    scheme := hb.scheme
    netloc_ne := hb.netloc_ne
    netloc := hb.netloc
    kept := hb.kept
    rooted := ?_
    params := splitParams_part ?_ hu.params
    clear := ⟨hclear '?' (by decide) (by decide) hb.clear.1 hu.clear.1,
      hclear '#' (by decide) (by decide) hb.clear.2.1 hu.clear.2.1, hu.clear.2.2⟩
    safe := ?_ }
  · have hhead : (rootPath (joinPath b.path u.path)).head? = some '/' := by
      rw [rootPath]
      split
      · next h => exact h
      · rfl
    intro c hc
    rw [ParseResult.fullPath, List.head?_append, hhead] at hc
    exact (Option.some.inj hc).symm
  · rw [behindLast_rootPath]
    exact behindLast_joinPath hu.last
  · intro c hc
    rcases List.mem_append.mp hc with hc | hc
    · rcases List.mem_append.mp hc with hc | hc
      · rcases hfull c hc with rfl | rfl | h | h
        · rfl
        · rfl
        · exact hb.safe c (List.mem_append_left _ (List.mem_append_left _ h))
        · exact hu.safe c (List.mem_append_left _ (List.mem_append_left _ h))
      · exact hu.safe c (List.mem_append_left _ (List.mem_append_right _ hc))
    · exact hu.safe c (List.mem_append_right _ hc)

end Web

end ThreatScanner
