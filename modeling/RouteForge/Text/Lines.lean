import RouteForge.Text.Fields

/-! The lines of a text. A line feed ends a line, one carriage return just before it belongs to
the terminator, and a last line without a line feed counts when it is not empty. -/
namespace RouteForge.Text

/-- A line that a line feed ended, without the carriage return of a two-character terminator. -/
def chomp (line : List Char) : List Char :=
  match line.getLast? with
  | some '\r' => line.dropLast
  | _ => line

/-- All parts but the last were ended by a line feed; the last is a line if it holds anything. -/
def chompAll : List (List Char) → List (List Char)
  | [] => []
  | [last] => if last.isEmpty then [] else [last]
  | line :: rest => chomp line :: chompAll rest

def lines (cs : List Char) : List (List Char) := chompAll (splitOn '\n' cs)

/-- Each line followed by one line feed. -/
def unlines (ls : List (List Char)) : List Char := ls.flatMap (· ++ ['\n'])

end RouteForge.Text
