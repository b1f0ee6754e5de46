import ThreatScanner.Frontend.Text
import ThreatScanner.Library.Html
import ThreatScanner.Python.Json

/-!
# Values as JavaScript handles them

What the page does with the values of a response: conversions, truth and the two kinds of
defaults. `undefined` is `none`, and `NaN` is the `none` of a number.
-/

namespace ThreatScanner.Frontend

/-- How numbers are written and read. -/
class JsNumbers where
  text : ℚ → String
  ofText : String → Option ℚ

/-- Numbers that are written as no text and read from none. -/
@[reducible] def noNumbers : JsNumbers where
  text _ := ""
  ofText _ := none

/-- `Boolean(x)`; unlike in Python an empty array is true. -/
def truthy : Json → Bool
  | .null => false
  | .bool b => b
  | .int n => n != 0
  | .real q => q != 0
  | .str s => s != ""
  | .arr _ | .obj _ => true

/-- `x.key` of an object. -/
def field (x : Json) (key : String) : Option Json :=
  match x with
  | .obj entries => entries.lookup key
  | _ => none

/-- `x?.length`. -/
def length? : Option Json → Option Json
  | some (.str s) => some (.int (Html.units s).length)
  | some (.arr items) => some (.int items.length)
  | some x => field x "length"
  | none => none

/-- `x || y`. -/
def orValue (x : Option Json) (y : Json) : Json :=
  match x with
  | some v => if truthy v then v else y
  | none => y

/-- `x ?? y`. -/
def nullishOr (x : Option Json) (y : Json) : Json :=
  match x with
  | none | some .null => y
  | some v => v

section Conversions
variable [JsNumbers]

mutual

/-- `String(x)`. -/
def toText : Json → String
  | .null => "null"
  | .bool b => if b then "true" else "false"
  | .int n => JsNumbers.text n
  | .real q => JsNumbers.text q
  | .str s => s
  | .arr items => ",".intercalate (itemTexts items)
  | .obj _ => "[object Object]"

/-- The texts that `Array.prototype.join` puts together. -/
def itemTexts : List Json → List String
  | [] => []
  | .null :: items => "" :: itemTexts items
  | item :: items => toText item :: itemTexts items

end

/-- `Number(x)`. -/
def toNumber : Json → Option ℚ
  | .null => some 0
  | .bool b => some (if b then 1 else 0)
  | .int n => some n
  | .real q => some q
  | .str s => JsNumbers.ofText s
  | .arr items => JsNumbers.ofText (toText (.arr items))
  | .obj _ => none

end Conversions

end ThreatScanner.Frontend
