import RouteForge.Yaml.Fault

/-! A place in a YAML text with what follows it, and the character classes that the syntax is
made of. A line break is one of carriage return, line feed, next line, line separator and
paragraph separator, or a carriage return with a line feed. -/
namespace RouteForge.Yaml

def isBreak (c : Char) : Bool :=
  c == '\r' || c == '\n' || c == '\u0085' || c == '\u2028' || c == '\u2029'

def isBlank (c : Char) : Bool := c == ' ' || c == '\t'

/-- Letters, digits, underscore and hyphen: the characters of names. -/
def isNameChar (c : Char) : Bool := c.isAlphanum || c == '_' || c == '-'

/-- The characters that may stand in a text as themselves. -/
def isAllowed (c : Char) : Bool :=
  let n := c.toNat
  n == 9 || n == 10 || n == 13 || (0x20 ≤ n && n ≤ 0x7e) || n == 0x85 ||
    (0xa0 ≤ n && n ≤ 0xd7ff) || (0xe000 ≤ n && n ≤ 0xfffd && n != 0xfeff) || 0x10000 ≤ n

structure Cursor where
  rest : List Char
  mark : Mark
  deriving DecidableEq, Repr, Inhabited

namespace Cursor

def start (text : List Char) : Cursor := ⟨text, ⟨0, 0, 0⟩⟩

def peek? (c : Cursor) (ahead : Nat) : Option Char := c.rest[ahead]?

def at? (c : Cursor) (ahead : Nat) (x : Char) : Bool := c.peek? ahead == some x

def atEnd (c : Cursor) : Bool := c.rest.isEmpty

def breakAt (c : Cursor) (ahead : Nat) : Bool := (c.peek? ahead).any isBreak

def blankAt (c : Cursor) (ahead : Nat) : Bool := (c.peek? ahead).any isBlank

/-- A blank, a line break or the end of the text. -/
def gapAt (c : Cursor) (ahead : Nat) : Bool :=
  (c.peek? ahead).all (fun x => isBlank x || isBreak x)

def breakOrEnd (c : Cursor) : Bool := c.atEnd || c.breakAt 0

/-- Moves over characters of one line. -/
def skip (c : Cursor) (count : Nat) : Cursor :=
  ⟨c.rest.drop count, ⟨c.mark.index + count, c.mark.line, c.mark.column + count⟩⟩

/-- Moves over one line break, if one is here. -/
def skipLine (c : Cursor) : Cursor :=
  match c.rest with
  | '\r' :: '\n' :: rest => ⟨rest, ⟨c.mark.index + 2, c.mark.line + 1, 0⟩⟩
  | x :: rest => if isBreak x then ⟨rest, ⟨c.mark.index + 1, c.mark.line + 1, 0⟩⟩ else c
  | [] => c

/-- What a line break stands for in a scalar: the two separators for themselves, every other one
for a line feed. -/
def lineText (c : Cursor) : List Char :=
  match c.rest with
  | x :: _ => if x == '\u2028' || x == '\u2029' then [x] else if isBreak x then ['\n'] else []
  | [] => []

/-- The longest run of such characters, all of one line. -/
def takeWhile (c : Cursor) (p : Char → Bool) : List Char × Cursor :=
  let run := c.rest.takeWhile p
  (run, c.skip run.length)

def skipWhile (c : Cursor) (p : Char → Bool) : Cursor := (c.takeWhile p).2

def skipBlanks (c : Cursor) : Cursor := c.skipWhile isBlank

/-- A comment reaches to the end of its line. -/
def skipComment (c : Cursor) : Cursor :=
  if c.at? 0 '#' then c.skipWhile (fun x => !isBreak x) else c

/-- Three marker characters at the start of a line, with a gap behind them. -/
def atMarker (c : Cursor) (x : Char) : Bool :=
  c.mark.column == 0 && c.at? 0 x && c.at? 1 x && c.at? 2 x && c.gapAt 3

def atDocumentMarker (c : Cursor) : Bool := c.atMarker '-' || c.atMarker '.'

end Cursor
end RouteForge.Yaml
