import ThreatScanner.Library.PathResolution
import ThreatScanner.Python.Json

/-!
# Static frontend files

`frontend_static` joins the path of the request to `FRONTEND_DIR` and answers with what it finds
there. It does not look at where the joined path leads, so an absolute path, or one with enough
`..`, names a file outside the directory. `StaysInside` says which paths do not.
-/

namespace ThreatScanner.Static

open PathResolution

/-- A `pathlib` path: whether it starts with a slash, and its components. -/
structure PosixPath where
  absolute : Bool
  parts : List (Component String)
deriving DecidableEq

namespace PosixPath

/-- A part between two slashes; `pathlib` drops the empty ones and `.`, and keeps `..`. -/
def component? (part : String) : Option (Component String) :=
  if part = "" ∨ part = "." then none
  else if part = ".." then some .up
  else some (.name part)

/-- `Path(s)`. -/
def parse (s : String) : PosixPath where
  absolute := s.toList.head? = some '/'
  parts := (s.toList.splitOn '/').filterMap fun part => component? (String.ofList part)

/-- `left / right`: an absolute right operand replaces the left one. -/
def join (left right : PosixPath) : PosixPath :=
  if right.absolute then right else ⟨left.absolute, left.parts ++ right.parts⟩

end PosixPath

section
variable (tree : FileTree String) (projectRoot : List String)

/-- The place an absolute path is resolved to. -/
def resolve (path : PosixPath) : Option (List String) := tree.walk [] path.parts

/-- `path.is_file()`. -/
def isFile (path : PosixPath) : Bool :=
  (resolve tree path).any fun place => tree.kind place = some .file

/-- The names of `FRONTEND_DIR`, from the root of the file system. -/
def frontendNames : List String := projectRoot ++ ["frontend"]

/-- `FRONTEND_DIR = Path(PROJECT_ROOT) / "frontend"`, where `PROJECT_ROOT` is an `abspath`. -/
def frontendDir : PosixPath := ⟨true, (frontendNames projectRoot).map .name⟩

/-- `GET /frontend/{file_path}`: the path of the file that is sent. -/
def frontendStatic (filePath : String) : Except HttpError PosixPath :=
  let candidate := (frontendDir projectRoot).join (.parse filePath)
  if isFile tree candidate then .ok candidate else .error ⟨404, "Frontend asset not found"⟩

/-- Every file the handler answers with is inside `FRONTEND_DIR`. -/
def ServesInside (filePath : String) : Prop :=
  ∀ path place, frontendStatic tree projectRoot filePath = .ok path →
    resolve tree path = some place → frontendNames projectRoot <+: place

/-- The path goes down again over the components of `FRONTEND_DIR` that it leaves: all of them when
it is absolute, one for each step up otherwise. -/
def StaysInside (path : PosixPath) : Prop :=
  let dir := frontendNames projectRoot
  let reduced := reduce path.parts
  if path.absolute then dir <+: reduced.names
  else dir.drop (dir.length - reduced.ups) <+: reduced.names

end

variable {tree : FileTree String} {projectRoot : List String}

/-- Where the joined path leads by its names. -/
theorem prefix_follow_iff (path : PosixPath) :
    frontendNames projectRoot <+: follow [] ((frontendDir projectRoot).join path).parts ↔
      StaysInside projectRoot path := by
  cases habs : path.absolute with
  | true =>
    have hjoin : (frontendDir projectRoot).join path = path := if_pos habs
    rw [hjoin, follow_eq, StaysInside, if_pos habs]
    simp only [Reduced.apply, List.take_nil, List.nil_append]
  | false =>
    have hjoin : ((frontendDir projectRoot).join path).parts =
        (frontendNames projectRoot).map .name ++ path.parts := by
      rw [PosixPath.join, if_neg (by rw [habs]; exact Bool.false_ne_true)]
      rfl
    rw [hjoin, follow_append, follow_names, List.nil_append, follow_eq, prefix_apply_iff,
      StaysInside, if_neg (by rw [habs]; exact Bool.false_ne_true)]

theorem frontendStatic_eq_ok {filePath : String} {path : PosixPath} :
    frontendStatic tree projectRoot filePath = .ok path ↔
      path = (frontendDir projectRoot).join (.parse filePath) ∧ isFile tree path = true := by
  simp only [frontendStatic]
  split
  · rename_i hfile
    constructor
    · rintro ⟨⟩
      exact ⟨rfl, hfile⟩
    · rintro ⟨rfl, -⟩
      rfl
  · rename_i hfile
    constructor
    · rintro ⟨⟩
    · rintro ⟨rfl, h⟩
      exact (hfile h).elim

/-- A file below `FRONTEND_DIR` is sent when its names are requested. -/
theorem frontendStatic_serves {filePath : String} {names : List String}
    (hpath : PosixPath.parse filePath = ⟨false, names.map .name⟩)
    (hkind : tree.kind (frontendNames projectRoot ++ names) = some .file) :
    ∃ path, frontendStatic tree projectRoot filePath = .ok path ∧
      resolve tree path = some (frontendNames projectRoot ++ names) := by
  have hjoin : ((frontendDir projectRoot).join (.parse filePath)).parts =
      (frontendNames projectRoot ++ names).map .name := by
    rw [hpath, List.map_append]
    rfl
  have hwalk : resolve tree ((frontendDir projectRoot).join (.parse filePath)) =
      some (frontendNames projectRoot ++ names) := by
    rw [resolve, hjoin]
    exact tree.walk_names [] _ (by rw [List.nil_append, hkind]; rfl)
  refine ⟨_, frontendStatic_eq_ok.mpr ⟨rfl, ?_⟩, hwalk⟩
  simp [isFile, hwalk, hkind]

/-- A request is answered from inside `FRONTEND_DIR` only, in exactly these cases: the joined path
is no file, or the path of the request stays inside. -/
theorem servesInside_iff (tree : FileTree String) (projectRoot : List String) (filePath : String) :
    ServesInside tree projectRoot filePath ↔
      isFile tree ((frontendDir projectRoot).join (.parse filePath)) = false ∨
        StaysInside projectRoot (.parse filePath) := by
  constructor
  · intro hserves
    cases hfile : isFile tree ((frontendDir projectRoot).join (.parse filePath)) with
    | false => exact .inl rfl
    | true =>
      obtain ⟨place, hplace, _⟩ := (Option.any_eq_true _ _).mp hfile
      have hinside := hserves _ place (frontendStatic_eq_ok.mpr ⟨rfl, hfile⟩) hplace
      rw [FileTree.eq_follow_of_walk hplace] at hinside
      exact .inr ((prefix_follow_iff _).mp hinside)
  · intro h path place hok hplace
    obtain ⟨rfl, hfile⟩ := frontendStatic_eq_ok.mp hok
    rcases h with hnot | hstays
    · rw [hnot] at hfile
      cases hfile
    · rw [FileTree.eq_follow_of_walk hplace]
      exact (prefix_follow_iff _).mpr hstays

/-- A project in `/srv/app`, with the frontend and the database of the backend. -/
def projectTree : FileTree String where
  kind place :=
    if place ∈ [[], ["srv"], ["srv", "app"], ["srv", "app", "frontend"], ["srv", "app", "backend"]]
    then some .dir
    else if place ∈ [["srv", "app", "frontend", "app.js"], ["srv", "app", "backend", "database.db"]]
    then some .file
    else none
  root := rfl
  parent place n h := by
    have hplace : place = (place ++ [n]).dropLast := List.dropLast_concat.symm
    generalize place ++ [n] = below at h hplace
    subst hplace
    simp only [List.mem_cons, List.not_mem_nil, or_false] at h
    split at h
    · rename_i hdir
      rcases hdir with rfl | rfl | rfl | rfl | rfl <;> decide
    · split at h
      · rename_i hfile
        rcases hfile with rfl | rfl <;> decide
      · cases h

theorem database_served :
    ¬∀ tree projectRoot filePath, ServesInside tree projectRoot filePath := by
  intro hall
  have h := hall projectTree ["srv", "app"] "../backend/database.db" _
    ["srv", "app", "backend", "database.db"] rfl (by decide)
  exact absurd h (by decide)

end ThreatScanner.Static
