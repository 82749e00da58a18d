/-!
# What keeps a text from being JSON

A complaint, and the place it is about: line and column counted from one, and the number of characters before.
-/

namespace ZincModel.Json

/-- What was expected or found wrong. -/
inductive Complaint where
  | byteOrderMark
  | value
  | name
  | colon
  | comma
  | unterminated
  | controlCharacter
  | badEscape
  | badUnicodeEscape
  | extraData
  deriving DecidableEq, Repr

def Complaint.message : Complaint → String
  | byteOrderMark => "Unexpected UTF-8 BOM (decode using utf-8-sig)"
  | value => "Expecting value"
  | name => "Expecting property name enclosed in double quotes"
  | colon => "Expecting ':' delimiter"
  | comma => "Expecting ',' delimiter"
  | unterminated => "Unterminated string starting at"
  | controlCharacter => "Invalid control character at"
  | badEscape => "Invalid \\escape"
  | badUnicodeEscape => "Invalid \\uXXXX escape"
  | extraData => "Extra data"

/-- A complaint about a place in a text. -/
structure SyntaxFault where
  complaint : Complaint
  line : Nat
  column : Nat
  position : Nat
  deriving DecidableEq, Repr

/-- A complaint about what follows the characters `before`. -/
def SyntaxFault.after (complaint : Complaint) (before : List Char) : SyntaxFault where
  complaint := complaint
  line := before.count '\n' + 1
  column := (before.reverse.takeWhile (· ≠ '\n')).length + 1
  position := before.length

def SyntaxFault.message (f : SyntaxFault) : String :=
  f.complaint.message ++ ": line " ++ toString f.line ++ " column " ++ toString f.column ++
    " (char " ++ toString f.position ++ ")"

end ZincModel.Json
