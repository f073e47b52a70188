import RouteForge.Path
import RouteForge.Text.Blank
import RouteForge.Text.Lines

/-! Lines that include another file, and the lines that are kept. A directive is a whole line,
trimmed: the word, blanks, and a target that may stand in quotes. -/
namespace RouteForge.Include

def word : List Char := "!include".toList

/-- The text without the quotes at its ends. -/
def unquote (cs : List Char) : List Char :=
  ((cs.dropWhile (· = '"')).reverse.dropWhile (· = '"')).reverse

/-- The target behind the word. Quotes at its ends do not belong to it and none may stand inside.
Where nothing but quotes follows several blanks, the last blank is the target. -/
def argument? (blanks rest : List Char) : Option (List Char) :=
  let target := unquote rest
  if target.contains '"' then none
  else if target ≠ [] then some target
  else match blanks.reverse with
    | last :: _ :: _ => some [last]
    | _ => none

def target? (line : List Char) : Option (List Char) :=
  let line := Text.trim line
  if word.isPrefixOf line then
    let rest := line.drop word.length
    let blanks := rest.takeWhile Text.isBlank
    if blanks = [] then none else argument? blanks (rest.dropWhile Text.isBlank)
  else none

/-- A file's own text without its directives, and the paths that these name, in their order. -/
structure Source where
  content : List Char
  targets : List Path
  deriving DecidableEq, Repr

def Source.ofText (text : List Char) : Source :=
  let lines := Text.lines text
  { content := Text.unlines (lines.filter (fun line => (target? line).isNone))
    targets := lines.filterMap (fun line => (target? line).map Path.mk) }

end RouteForge.Include
