import RouteForge.Yaml.Token

/-! The text of quoted, plain and block scalars. In the first two a single line break is folded
to a space and of several the first is dropped; a separator of lines or paragraphs stands for
itself. Loops take a bound that the length of the rest provides. -/
namespace RouteForge.Yaml.Scalar

/-- Blanks and line breaks between two words of a scalar. -/
structure Gap where
  blanks : List Char
  firstBreak : List Char
  moreBreaks : List Char
  broken : Bool

def Gap.none : Gap := ⟨[], [], [], false⟩

/-- A gap behind an escaped line break, which stands for nothing itself. -/
def Gap.escaped : Gap := ⟨[], [], [], true⟩

def Gap.text (g : Gap) : List Char :=
  if !g.broken then g.blanks
  else if g.firstBreak = ['\n'] then
    if g.moreBreaks.isEmpty then [' '] else g.moreBreaks
  else g.firstBreak ++ g.moreBreaks

/-- Blanks behind a line break are indentation. A tab there is refused below `indent`. -/
def Gap.scan (indent : Nat) : Nat → Gap → Cursor → Except Problem (Gap × Cursor)
  | 0, g, c => .ok (g, c)
  | fuel + 1, g, c =>
    match c.peek? 0 with
    | some x =>
      if isBlank x then
        if g.broken && x == '\t' && c.mark.column < indent then .error .indentationTab
        else scan indent fuel (if g.broken then g else { g with blanks := g.blanks ++ [x] })
          (c.skip 1)
      else if isBreak x then
        scan indent fuel
          (if g.broken then { g with moreBreaks := g.moreBreaks ++ c.lineText }
           else ⟨[], c.lineText, [], true⟩)
          c.skipLine
      else .ok (g, c)
    | Option.none => .ok (g, c)

/-- The meaning of the character behind a backslash: a character, or a count of hexadecimal
digits that follow. -/
def escape? : Char → Option (Char ⊕ Nat)
  | '0' => some (.inl '\x00')
  | 'a' => some (.inl '\x07')
  | 'b' => some (.inl '\x08')
  | 't' => some (.inl '\t')
  | '\t' => some (.inl '\t')
  | 'n' => some (.inl '\n')
  | 'v' => some (.inl '\x0b')
  | 'f' => some (.inl '\x0c')
  | 'r' => some (.inl '\r')
  | 'e' => some (.inl '\x1b')
  | ' ' => some (.inl ' ')
  | '"' => some (.inl '"')
  | '/' => some (.inl '/')
  | '\\' => some (.inl '\\')
  | 'N' => some (.inl '\u0085')
  | '_' => some (.inl '\u00a0')
  | 'L' => some (.inl '\u2028')
  | 'P' => some (.inl '\u2029')
  | 'x' => some (.inr 2)
  | 'u' => some (.inr 4)
  | 'U' => some (.inr 8)
  | _ => none

def hexValue? (c : Char) : Option Nat :=
  if '0' ≤ c ∧ c ≤ '9' then some (c.toNat - 48)
  else if 'a' ≤ c ∧ c ≤ 'f' then some (c.toNat - 87)
  else if 'A' ≤ c ∧ c ≤ 'F' then some (c.toNat - 55)
  else none

/-- A number written with exactly so many hexadecimal digits. -/
def hexNumber? (count : Nat) (cs : List Char) : Option Nat :=
  let digits := cs.take count
  if digits.length < count then none
  else digits.foldl (fun n c => do return (← n) * 16 + (← hexValue? c)) (some 0)

def charOf? (n : Nat) : Option Char :=
  if h : n.isValidChar then some (Char.ofNatAux n h) else none

/-- The character at a backslash, and how many characters spell it. -/
def escapedChar (c : Cursor) : Except Problem (Char × Nat) :=
  match (c.peek? 1).bind escape? with
  | none => .error .escape
  | some (.inl x) => .ok (x, 2)
  | some (.inr count) =>
    match hexNumber? count (c.rest.drop 2) with
    | none => .error .hexNumber
    | some n =>
      match charOf? n with
      | none => .error .codePoint
      | some x => .ok (x, 2 + count)

/-- The kinds of quotes: in single ones only a doubled quote is special. -/
inductive Quotes where
  | single
  | double
  deriving DecidableEq

def Quotes.char : Quotes → Char
  | .single => '\''
  | .double => '"'

/-- The characters up to a gap or the closing quote, in front of what was read before; also
whether an escaped line break ended them. -/
def quotedWord (q : Quotes) : Nat → Cursor → List Char → Except Problem (List Char × Cursor × Bool)
  | 0, c, read => .ok (read, c, false)
  | fuel + 1, c, read =>
    match c.peek? 0 with
    | none => .ok (read, c, false)
    | some x =>
      if isBlank x || isBreak x then .ok (read, c, false)
      else if q = .single ∧ x = '\'' ∧ c.at? 1 '\'' then quotedWord q fuel (c.skip 2) ('\'' :: read)
      else if x = q.char then .ok (read, c, false)
      else if q = .double ∧ x = '\\' then
        if c.breakAt 1 then .ok (read, (c.skip 1).skipLine, true)
        else
          match escapedChar c with
          | .error e => .error e
          | .ok (y, size) => quotedWord q fuel (c.skip size) (y :: read)
      else quotedWord q fuel (c.skip 1) (x :: read)

def quotedWords (q : Quotes) : Nat → Cursor → List Char → Except Problem (List Char × Cursor)
  | 0, _, _ => .error .unclosedQuotes
  | fuel + 1, c, read =>
    if c.atDocumentMarker then .error .documentInQuotes
    else if c.atEnd then .error .unclosedQuotes
    else
      match quotedWord q (c.rest.length + 1) c read with
      | .error e => .error e
      | .ok (read, c, escaped) =>
        if c.at? 0 q.char then .ok (read.reverse, c.skip 1)
        else
          match Gap.scan 0 (c.rest.length + 1) (if escaped then .escaped else .none) c with
          | .error e => .error e
          | .ok (gap, c) => quotedWords q fuel c (gap.text.reverse ++ read)

/-- A scalar in quotes, from its opening quote on. -/
def quoted (q : Quotes) (c : Cursor) : Except Problem (List Char × Cursor) :=
  quotedWords q (c.rest.length + 1) (c.skip 1) []

def isFlowIndicator (c : Char) : Bool :=
  c == ',' || c == '[' || c == ']' || c == '{' || c == '}'

/-- The characters of a plain scalar up to a gap or an indicator that ends it. -/
def plainWord (flow : Bool) : Nat → Cursor → List Char → Except Problem (List Char × Cursor)
  | 0, c, word => .ok (word, c)
  | fuel + 1, c, word =>
    match c.peek? 0 with
    | none => .ok (word, c)
    | some x =>
      if isBlank x || isBreak x then .ok (word, c)
      else if flow ∧ x = ':' ∧ (c.peek? 1).any (fun y => isFlowIndicator y || y == '?') then
        .error .colonInFlow
      else if (x = ':' ∧ c.gapAt 1) ∨ (flow ∧ isFlowIndicator x) then .ok (word, c)
      else plainWord flow fuel (c.skip 1) (x :: word)

/-- The words of a plain scalar with the gaps between them. The flag says that the scalar was
left over a line break. -/
def plainWords (flow : Bool) (indent : Nat) :
    Nat → Cursor → Gap → List Char → Except Problem (List Char × Cursor × Bool)
  | 0, c, gap, read => .ok (read.reverse, c, gap.broken)
  | fuel + 1, c, gap, read =>
    if c.atDocumentMarker || c.at? 0 '#' then .ok (read.reverse, c, gap.broken)
    else
      match plainWord flow (c.rest.length + 1) c [] with
      | .error e => .error e
      | .ok ([], c) => .ok (read.reverse, c, gap.broken)
      | .ok (word, c) =>
        let read := word ++ gap.text.reverse ++ read
        if !(c.blankAt 0 || c.breakAt 0) then .ok (read.reverse, c, false)
        else
          match Gap.scan indent (c.rest.length + 1) .none c with
          | .error e => .error e
          | .ok (gap, c) =>
            if !flow ∧ c.mark.column < indent then .ok (read.reverse, c, gap.broken)
            else plainWords flow indent fuel c gap read

def plain (flow : Bool) (indent : Nat) (c : Cursor) :
    Except Problem (List Char × Cursor × Bool) :=
  plainWords flow indent (c.rest.length + 1) c .none []

/-- What happens to the line breaks at the end of a block scalar. -/
inductive Chomping where
  | clip
  | strip
  | keep
  deriving DecidableEq

def chomping? : Char → Option Chomping
  | '+' => some .keep
  | '-' => some .strip
  | _ => none

def indentation? (c : Char) : Option Nat :=
  if c.isDigit then some (c.toNat - 48) else none

/-- The indicators behind the bar, in either order and each at most once. -/
def blockHeader (c : Cursor) : Except Problem (Chomping × Nat × Cursor) :=
  match (c.peek? 0).bind chomping?, (c.peek? 0).bind indentation? with
  | some chomping, _ =>
    match (c.peek? 1).bind indentation? with
    | some 0 => .error .indentationZero
    | some n => .ok (chomping, n, c.skip 2)
    | none => .ok (chomping, 0, c.skip 1)
  | none, some 0 => .error .indentationZero
  | none, some n =>
    match (c.peek? 1).bind chomping? with
    | some chomping => .ok (chomping, n, c.skip 2)
    | none => .ok (.clip, n, c.skip 1)
  | none, none => .ok (.clip, 0, c)

/-- Indentation and empty lines in front of a line of a block scalar. While the indentation is
unknown (zero) it grows to the deepest line seen; `least` is the smallest it may become. -/
def blockBreaks (least : Nat) :
    Nat → Nat → Nat → List Char → Cursor → Except Problem (Nat × List Char × Cursor)
  | 0, indent, _, breaks, c => .ok (indent, breaks, c)
  | fuel + 1, indent, deepest, breaks, c =>
    let spaces := (c.rest.takeWhile (· == ' ')).length
    let c := c.skip (if indent = 0 then spaces else min spaces (indent - c.mark.column))
    let deepest := max deepest c.mark.column
    if (indent = 0 ∨ c.mark.column < indent) ∧ c.at? 0 '\t' then .error .indentationTab
    else if c.breakAt 0 then
      blockBreaks least fuel indent deepest (breaks ++ c.lineText) c.skipLine
    else .ok (if indent = 0 then max deepest least else indent, breaks, c)

/-- The lines of a block scalar. `last` is the break behind the line before, `more` the empty
lines after it, and `blank` says that the line before began with a blank: such lines and their
neighbours are not folded. -/
def blockLines (literal : Bool) (least indent : Nat) :
    Nat → List Char → List Char → Bool → List Char → Cursor →
      Except Problem (List Char × List Char × List Char × Cursor)
  | 0, last, more, _, read, c => .ok (read, last, more, c)
  | fuel + 1, last, more, blank, read, c =>
    if c.mark.column ≠ indent ∨ c.atEnd then .ok (read, last, more, c)
    else
      let folded := !literal && last == ['\n'] && !blank && !c.blankAt 0
      let joint := if folded then (if more.isEmpty then [' '] else []) else last
      let (line, after) := c.takeWhile (fun x => !isBreak x)
      let read := line.reverse ++ (joint ++ more).reverse ++ read
      match blockBreaks least (c.rest.length + 1) indent 0 [] after.skipLine with
      | .error e => .error e
      | .ok (_, breaks, next) =>
        blockLines literal least indent fuel after.lineText breaks (c.blankAt 0) read next

/-- A block scalar, from its bar on, inside a collection at `outer` (none at the top). -/
def block (literal : Bool) (outer : Option Nat) (c : Cursor) :
    Except Problem (List Char × Cursor) := do
  let (chomping, given, c) ← blockHeader (c.skip 1)
  let c := c.skipBlanks.skipComment
  if !c.breakOrEnd then throw .lineEnd
  let c := c.skipLine
  let least := match outer with
    | some n => n + 1
    | none => 1
  let indent := if given = 0 then 0 else outer.getD 0 + given
  let fuel := c.rest.length + 1
  let (indent, breaks, c) ← blockBreaks least fuel indent 0 [] c
  let (read, last, more, c) ← blockLines literal least indent fuel [] breaks false [] c
  let tail := match chomping with
    | .strip => []
    | .clip => last
    | .keep => last ++ more
  return (read.reverse ++ tail, c)

end RouteForge.Yaml.Scalar
