import RouteForge.Yaml.Token.Property

/-! From characters to tokens. Outside brackets the column of a token opens and closes block
collections; what may be a key is remembered until the `:` behind it shows that it was one, and
the tokens that announce it are put in front of it then. -/
namespace RouteForge.Yaml

/-- A token that a `:` on its line would make a key. -/
structure KeyCandidate where
  position : Nat
  mark : Mark
  required : Bool

/-- `levels` are the columns of the open block collections and `candidates` the possible keys,
one for each open bracket and one for the text around them, innermost first. The tokens are in
reverse. -/
structure Scanner where
  cursor : Cursor
  levels : List Nat
  candidates : List (Option KeyCandidate)
  keyAllowed : Bool
  tokens : List Placed
  count : Nat

namespace Scanner

def start (text : List Char) : Scanner := ⟨.start text, [], [none], true, [], 0⟩

def inFlow (s : Scanner) : Bool := 2 ≤ s.candidates.length

def column (s : Scanner) : Nat := s.cursor.mark.column

def push (s : Scanner) (token : Token) (mark : Mark) : Scanner :=
  { s with tokens := ⟨token, mark⟩ :: s.tokens, count := s.count + 1 }

/-- Puts a token in front of the one with the given number. -/
def insert (s : Scanner) (position : Nat) (token : Token) (mark : Mark) : Scanner :=
  let (newer, older) := s.tokens.splitAt (s.count - position)
  { s with tokens := newer ++ ⟨token, mark⟩ :: older, count := s.count + 1 }

/-- Pushes a token that starts here and moves behind it. -/
def emit (s : Scanner) (token : Token) (after : Cursor) : Scanner :=
  { s.push token s.cursor.mark with cursor := after }

/-- Closes the block collections deeper than the column; all of them if there is none. -/
def unroll (s : Scanner) (column : Option Nat) : Scanner :=
  if s.inFlow then s
  else
    let closed := s.levels.takeWhile (fun level => column.all (· < level))
    { s with
      levels := s.levels.drop closed.length
      tokens := closed.map (fun _ => ⟨.blockEnd, s.cursor.mark⟩) ++ s.tokens
      count := s.count + closed.length }

/-- Opens a block collection in front of a token if the column is deeper than all open ones. -/
def roll (s : Scanner) (column position : Nat) (token : Token) (mark : Mark) : Scanner :=
  if !s.inFlow && s.levels.head?.all (· < column) then
    { s.insert position token mark with levels := column :: s.levels }
  else s

def candidate (s : Scanner) : Option KeyCandidate := s.candidates.head?.join

def setCandidate (s : Scanner) (key : Option KeyCandidate) : Scanner :=
  { s with candidates := key :: s.candidates.drop 1 }

/-- A key that the indentation asks for cannot be given up. -/
def removeCandidate (s : Scanner) : Except Problem Scanner :=
  match s.candidate with
  | some key => if key.required then .error .keyWithoutValue else .ok (s.setCandidate none)
  | none => .ok s

/-- The next token may be a key, where keys are allowed. -/
def saveCandidate (s : Scanner) : Except Problem Scanner :=
  if s.keyAllowed then do
    let required := !s.inFlow && s.levels.head? == some s.column
    return (← s.removeCandidate).setCandidate (some ⟨s.count, s.cursor.mark, required⟩)
  else .ok s

/-- A key ends on the line where it starts, and within 1024 characters. -/
def isStale (s : Scanner) (key : KeyCandidate) : Bool :=
  key.mark.line < s.cursor.mark.line || key.mark.index + 1024 < s.cursor.mark.index

def dropStale (s : Scanner) : Except Problem Scanner :=
  if s.candidates.any (·.any fun key => s.isStale key && key.required) then
    .error .keyWithoutValue
  else
    let fresh := s.candidates.map (·.filter fun key => !s.isStale key)
    .ok { s with candidates := fresh }

/-- Blanks, comments and line breaks in front of a token. A tab counts as blank only where it
cannot be indentation, and outside brackets a new line allows a key again. -/
def skipGap : Nat → Scanner → Scanner
  | 0, s => s
  | fuel + 1, s =>
    let c := s.cursor.skipWhile (fun x => x == ' ' || ((s.inFlow || !s.keyAllowed) && x == '\t'))
    let c := c.skipComment
    if c.breakAt 0 then
      skipGap fuel { s with cursor := c.skipLine, keyAllowed := s.keyAllowed || !s.inFlow }
    else { s with cursor := c }

/-- A token at which block collections and possible keys end. -/
def interrupt (s : Scanner) : Except Problem Scanner := do
  return { ← (s.unroll none).removeCandidate with keyAllowed := false }

def openFlow (s : Scanner) (token : Token) : Except Problem Scanner := do
  let s := (← s.saveCandidate).emit token (s.cursor.skip 1)
  return { s with candidates := none :: s.candidates, keyAllowed := true }

/-- A closing bracket without an opening one is left to the next stage. -/
def closeFlow (s : Scanner) (token : Token) : Except Problem Scanner := do
  let s ← s.removeCandidate
  let candidates := if s.inFlow then s.candidates.drop 1 else s.candidates
  return { s.emit token (s.cursor.skip 1) with candidates := candidates, keyAllowed := false }

def flowEntry (s : Scanner) : Except Problem Scanner := do
  return { (← s.removeCandidate).emit .flowEntry (s.cursor.skip 1) with keyAllowed := true }

def entry (s : Scanner) : Except Problem Scanner := do
  if !s.inFlow && !s.keyAllowed then throw .entryNotAllowed
  let s ← (s.roll s.column s.count .blockSequenceStart s.cursor.mark).removeCandidate
  return { s.emit .entry (s.cursor.skip 1) with keyAllowed := true }

def key (s : Scanner) : Except Problem Scanner := do
  if !s.inFlow && !s.keyAllowed then throw .keyNotAllowed
  let s ← (s.roll s.column s.count .blockMappingStart s.cursor.mark).removeCandidate
  return { s.emit .key (s.cursor.skip 1) with keyAllowed := !s.inFlow }

/-- A `:` behind a possible key makes it one; else it belongs to an explicit key. -/
def value (s : Scanner) : Except Problem Scanner :=
  match s.candidate with
  | some key =>
    let s := (s.insert key.position .key key.mark).roll key.mark.column key.position
      .blockMappingStart key.mark
    .ok { (s.setCandidate none).emit .value (s.cursor.skip 1) with keyAllowed := false }
  | none =>
    if !s.inFlow && !s.keyAllowed then .error .valueNotAllowed
    else
      let s := s.roll s.column s.count .blockMappingStart s.cursor.mark
      .ok { s.emit .value (s.cursor.skip 1) with keyAllowed := !s.inFlow }

/-- A token that may be a key and after which no key can start. -/
def content (s : Scanner) (scan : Cursor → Except Problem (Token × Cursor)) :
    Except Problem Scanner := do
  let s ← s.saveCandidate
  let (token, after) ← scan s.cursor
  return { s.emit token after with keyAllowed := false }

def anchor (make : String → Token) (c : Cursor) : Except Problem (Token × Cursor) := do
  let (name, after) ← Property.anchorName c
  return (make name, after)

def quoted (q : Scalar.Quotes) (c : Cursor) : Except Problem (Token × Cursor) := do
  let (text, after) ← Scalar.quoted q c
  return (.scalar .quoted (String.ofList text), after)

def blockScalar (s : Scanner) (literal : Bool) : Except Problem Scanner := do
  let s ← s.removeCandidate
  let (text, after) ← Scalar.block literal s.levels.head? s.cursor
  return { s.emit (.scalar .block (String.ofList text)) after with keyAllowed := true }

/-- A plain scalar that was left over a line break allows a key behind it. -/
def plain (s : Scanner) : Except Problem Scanner := do
  let s ← s.saveCandidate
  let indent := match s.levels.head? with
    | some level => level + 1
    | none => 0
  let (text, after, broken) ← Scalar.plain s.inFlow indent s.cursor
  return { s.emit (.scalar .plain (String.ofList text)) after with keyAllowed := broken }

/-- A plain scalar starts with no indicator, but outside brackets with `?` or `:` before no gap,
and with `-` before no blank. -/
def plainStarts (s : Scanner) (x : Char) : Bool :=
  if x == '-' then !s.cursor.blankAt 1
  else if x == '?' || x == ':' then !s.inFlow && !s.cursor.gapAt 1
  else !(isBlank x || isBreak x || ",[]\x7b\x7d#&*!|>'\"%@`".toList.contains x)

def token (s : Scanner) (x : Char) : Except Problem Scanner :=
  let c := s.cursor
  if c.mark.column == 0 && x == '%' then do
    let s ← s.interrupt
    let (token, after) ← Property.directive c
    return s.emit token after
  else if c.atMarker '-' then do return (← s.interrupt).emit .documentStart (c.skip 3)
  else if c.atMarker '.' then do return (← s.interrupt).emit .documentEnd (c.skip 3)
  else if x == '[' then s.openFlow .flowSequenceStart
  else if x == '{' then s.openFlow .flowMappingStart
  else if x == ']' then s.closeFlow .flowSequenceEnd
  else if x == '}' then s.closeFlow .flowMappingEnd
  else if x == ',' then s.flowEntry
  else if x == '-' && c.gapAt 1 then s.entry
  else if x == '?' && (s.inFlow || c.gapAt 1) then s.key
  else if x == ':' && (s.inFlow || c.gapAt 1) then s.value
  else if x == '*' then s.content (anchor .alias)
  else if x == '&' then s.content (anchor .anchor)
  else if x == '!' then s.content (Property.tag s.inFlow)
  else if x == '|' && !s.inFlow then s.blockScalar true
  else if x == '>' && !s.inFlow then s.blockScalar false
  else if x == '\'' then s.content (quoted .single)
  else if x == '"' then s.content (quoted .double)
  else if s.plainStarts x then s.plain
  else .error .tokenStart

/-- The end of the text counts as a new line. -/
def finish (s : Scanner) : Except Problem Scanner := do
  let mark := s.cursor.mark
  let mark := if mark.column = 0 then mark else { mark with line := mark.line + 1, column := 0 }
  let s := { s with cursor := { s.cursor with mark := mark } }
  return (← s.interrupt).push .streamEnd mark

/-- Each step reads at least one character, so the length of the text bounds the steps. -/
def run : Nat → Scanner → Except Fault (List Placed)
  | 0, s => .error ⟨.tokenStart, s.cursor.mark⟩
  | fuel + 1, s =>
    let s := s.skipGap (s.cursor.rest.length + 1)
    match s.dropStale with
    | .error e => .error ⟨e, s.cursor.mark⟩
    | .ok s =>
      let s := s.unroll (some s.column)
      match s.cursor.rest with
      | [] =>
        match s.finish with
        | .error e => .error ⟨e, s.cursor.mark⟩
        | .ok s => .ok s.tokens.reverse
      | x :: _ =>
        match s.token x with
        | .error e => .error ⟨e, s.cursor.mark⟩
        | .ok s => run fuel s

end Scanner

/-- The tokens of a text, the last of which is the end of the stream. -/
def tokens (text : List Char) : Except Fault (List Placed) :=
  if text.all isAllowed then (Scanner.start text).run (text.length + 1)
  else .error ⟨.controlCharacter, ⟨(text.takeWhile isAllowed).length, 0, 0⟩⟩

end RouteForge.Yaml
