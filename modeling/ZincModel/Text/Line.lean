/-!
# Lines of a text

A text is cut into lines at every line boundary. Besides the line feed and the carriage return these are the
vertical tab, the form feed, the separators U+001C to U+001E, the next-line character and the two separators
of Unicode; a carriage return followed by a line feed is one boundary. The boundaries are no part of the
lines, and a boundary at the end of the text opens no further line.

`unifyNewlines` is the milder treatment of text files, in which only `\r\n` and `\r` become `\n`.
-/

namespace ZincModel.Text

/-- The character ends a line. -/
def isLineBoundary (c : Char) : Bool :=
  c == '\n' || c == '\r' || c == '\x0b' || c == '\x0c' || c == '\x1c' || c == '\x1d' || c == '\x1e' ||
    c == '\x85' || c == '\u2028' || c == '\u2029'

/-- The lines of a text, without their boundaries. -/
def lines : List Char → List (List Char)
  | [] => []
  | '\r' :: '\n' :: rest => [] :: lines rest
  | c :: rest =>
    if isLineBoundary c then [] :: lines rest
    else
      match lines rest with
      | [] => [[c]]
      | line :: more => (c :: line) :: more

/-- Every `\r\n` and every other `\r` becomes one `\n`. -/
def unifyNewlines : List Char → List Char
  | [] => []
  | '\r' :: '\n' :: rest => '\n' :: unifyNewlines rest
  | c :: rest => (if c == '\r' then '\n' else c) :: unifyNewlines rest

/-- The texts one after the other, with `separator` between each two. -/
def join (separator : List Char) : List (List Char) → List Char
  | [] => []
  | [text] => text
  | text :: more => text ++ separator ++ join separator more

/-- `word` stands somewhere in the text. -/
def occurs (word : List Char) : List Char → Bool
  | [] => word.isEmpty
  | c :: rest => word.isPrefixOf (c :: rest) || occurs word rest

end ZincModel.Text
