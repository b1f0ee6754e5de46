import ThreatScanner.Library.Masking
import ThreatScanner.Python.Json
import ThreatScanner.Python.Text

/-!
# Operations on values of any type

The parsers of the analyzer work on decoded JSON whose types they check in part only. Each
operation here is one of Python's on any JSON value, with the exception it raises on a value of a
type that it does not take.
-/

namespace ThreatScanner

/-- `str(x)`; the text of a string is the string. -/
class JsonText where
  text : Json → String
  text_str : ∀ s : String, text (.str s) = s

/-- The texts of strings, and of nothing else. -/
@[reducible] def stringText : JsonText where
  text
    | .str s => s
    | _ => ""
  text_str _ := rfl

namespace Json

/-- The value two numbers, or a number and a boolean, are compared by. -/
def number? : Json → Option ℚ
  | bool b => some (if b then 1 else 0)
  | int n => some n
  | real q => some q
  | _ => none

mutual

/-- `x == y`. -/
def eq : Json → Json → Bool
  | null, null => true
  | str s, str t => s = t
  | arr xs, arr ys => eqItems xs ys
  | obj es, obj fs => es.length = fs.length && eqEntries es fs
  | x, y => x.number?.isSome && x.number? = y.number?

def eqItems : List Json → List Json → Bool
  | [], [] => true
  | x :: xs, y :: ys => eq x y && eqItems xs ys
  | _, _ => false

def eqEntries : List (String × Json) → List (String × Json) → Bool
  | [], _ => true
  | (key, x) :: es, fs =>
    match fs.lookup key with
    | some y => eq x y && eqEntries es fs
    | none => false

end

/-- `key in x`. -/
def hasKey (x : Json) (key : String) : Except PyError Bool :=
  match x with
  | obj entries => .ok (entries.lookup key).isSome
  | arr items => .ok (items.any fun item => item.eq (str key))
  | str s => .ok (contains s key)
  | _ => .error ⟨"argument of type '" ++ x.typeName ++ "' is not iterable"⟩

/-- `x[key]`. -/
def item (x : Json) (key : String) : Except PyError Json :=
  match x with
  | obj entries =>
    match entries.lookup key with
    | some value => .ok value
    | none => .error ⟨"'" ++ key ++ "'"⟩
  | arr _ => .error ⟨"list indices must be integers or slices, not str"⟩
  | str _ => .error ⟨"string indices must be integers, not 'str'"⟩
  | _ => .error ⟨"'" ++ x.typeName ++ "' object is not subscriptable"⟩

/-- `x[0]`; a dictionary that comes from JSON has no integer keys. -/
def first (x : Json) : Except PyError Json :=
  match x with
  | arr (value :: _) => .ok value
  | arr [] => .error ⟨"list index out of range"⟩
  | str s =>
    match s.toList with
    | c :: _ => .ok (str (String.singleton c))
    | [] => .error ⟨"string index out of range"⟩
  | obj _ => .error ⟨"0"⟩
  | _ => .error ⟨"'" ++ x.typeName ++ "' object is not subscriptable"⟩

/-- `(x or "").lower()`. -/
def lowered [UnicodeTables] (x : Json) : Except PyError String :=
  match x.orElse (str "") with
  | str s => .ok (lower s)
  | y => .error ⟨"'" ++ y.typeName ++ "' object has no attribute 'lower'"⟩

/-- `x.replace(old, new)`. -/
def replaced (x : Json) (old new : String) : Except PyError String :=
  match x with
  | str s => .ok (String.ofList (replace s.toList old.toList new.toList))
  | _ => .error ⟨"'" ++ x.typeName ++ "' object has no attribute 'replace'"⟩

/-- `x >= n`. -/
def atLeast (x : Json) (n : Int) : Except PyError Bool :=
  match x.number? with
  | some q => .ok (n ≤ q)
  | none =>
    .error ⟨"'>=' not supported between instances of '" ++ x.typeName ++ "' and 'int'"⟩

/-- The text of a string, as `" ".join` takes it. -/
def joinable (x : Json) : Except PyError String :=
  match x with
  | str s => .ok s
  | _ => .error ⟨"sequence item: expected str instance, " ++ x.typeName ++ " found"⟩

/-- `" ".join(x)`. -/
def joinSpace (x : Json) : Except PyError String := do
  let texts ← (← x.iterate).mapM joinable
  .ok (String.intercalate " " texts)

/-- A value that has a method `get` is a dictionary. -/
theorem get_eq_ok {x y default : Json} {key : String} : x.get key default = .ok y ↔
    ∃ entries, x = .obj entries ∧ y = (entries.lookup key).getD default := by
  cases x <;> simp [get, eq_comm]

end Json

end ThreatScanner
