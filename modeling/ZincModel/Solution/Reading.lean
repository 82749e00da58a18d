import ZincModel.Files
import ZincModel.Json.Reader

/-!
# Solutions

What a solver has written. A solution is an object of JSON in front of the first separator line, which starts
with ten hyphens or ten equals signs, perhaps behind blanks. The lines there are joined with newlines, however they were
ended, and lose the blanks around them, before they are read. Where there is none, the first line can say that the model
cannot be satisfied.
-/

namespace ZincModel.Solution

open Text

/-- The first lines of solvers' output that say that there is no solution hold this word. -/
def unsatMarker : List Char := "UNSAT".toList

/-- The line separates a solution from what follows: it starts with a row of signs, if blanks in front are left out. -/
def isSeparator (line : List Char) : Bool :=
  (List.replicate 10 '-').isPrefixOf (strip line) || (List.replicate 10 '=').isPrefixOf (strip line)

/-- The lines in front of the first separator line, joined with newlines and without blanks around them. -/
def firstPart (text : List Char) : List Char :=
  strip (join ['\n'] ((lines text).takeWhile (!isSeparator ·)))

/-- The entries of the first solution in a text, if there is one (`parse_solution`). -/
def parse (text : List Char) : Except Fault (Option (List (Value × Value))) :=
  let part := firstPart text
  if part.isEmpty then .ok none
  else
    match Json.read part with
    | .ok (.dict _ entries) => .ok (some entries)
    | .ok _ => .ok none
    | .error (.malformed _) => .ok none
    | .error (.tooLong digits) => .error (.content (.integerUnreadable digits))

/-- The text that was left at a path; nothing if there is no file (`_read_text`). Malformed bytes are replaced. -/
def artifactText : Option Entry → List Char
  | some (.file bytes _) => unifyNewlines (Utf8.decodeLossy bytes)
  | _ => []

/-- The first line of what was left; empty if there is none (`read_first_line`). -/
def firstLine (artifact : Option Entry) : List Char := ((lines (artifactText artifact)).head?).getD []

end ZincModel.Solution
