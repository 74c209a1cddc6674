/-
# Value.Shown -- the written form of a value

`literal` is the form of a value inside others: texts between quotation marks, lists in square
brackets, tables in braces with a colon after each key, the words `None`, `True` and `False`.
`shown` is the form of a value by itself, which differs only for a text and a moment: a text is shown
bare, a moment in its ISO form.  A moment whose offset is a day or more cannot be shown by itself
(`isShowable`).
-/
import CodeAtlas.Value.Basic
import CodeAtlas.Text.Quoted
import CodeAtlas.Number.Decimal

namespace CodeAtlas.Value

set_option autoImplicit false

mutual

def literal : Value → Text
  | .null => "None"
  | .bool true => "True"
  | .bool false => "False"
  | .int n => Number.showInt n
  | .float x => Number.showFloat x
  | .text t => Text.quoted t
  | .moment m => m.literal
  | .list vs => "[" ++ Text.join ", " (literals vs) ++ "]"
  | .table ms => ['\x7b'] ++ Text.join ", " (memberLiterals ms) ++ ['\x7d']

def literals : List Value → List Text
  | [] => []
  | v :: vs => literal v :: literals vs

def memberLiterals : List (Text × Value) → List Text
  | [] => []
  | (key, v) :: ms => (Text.quoted key ++ ": " ++ literal v) :: memberLiterals ms

end

def shown : Value → Text
  | .text t => t
  | .moment m => m.iso ' '
  | v => v.literal

/-- Can the value be shown by itself? -/
def isShowable : Value → Bool
  | .moment m => m.isNear
  | _ => true

end CodeAtlas.Value
