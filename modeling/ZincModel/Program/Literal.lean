import ZincModel.Json.Writer
import ZincModel.Model.Choice

/-!
# Literals

A value as a literal of MiniZinc, by the declared type and the value itself. Numbers are written without loss.
A text between double quotes holds no quote and no control character but behind a backslash.
-/

namespace ZincModel.Program

/-- The literal for a value of a declared type (`format_value`). -/
def literal (type : VariableType) (v : Value) : Except Fault (List Char) :=
  let truth : List Char := if v.isTrue then "true".toList else "false".toList
  match type, v with
  | .bool, _ => .ok truth
  | _, .bool _ => .ok truth
  | .string, v => v.text.map Json.plainText
  | _, .float _ x => .ok x.text
  | _, v => v.text

end ZincModel.Program
