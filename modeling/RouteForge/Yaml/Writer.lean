import RouteForge.Yaml.Value.Plain

/-! Writing a value as YAML in block style. A sequence under a key is not indented, a collection
inside a sequence starts on the line of its dash, and empty collections are written in brackets.
A text is plain where that reads back, else in single quotes, else in double quotes; a text of
several lines is a literal block where one can hold it. Lines are never folded. -/
namespace RouteForge.Yaml.Writer

/-- What the characters of a text allow. -/
structure Traits where
  multiline : Bool
  plain : Bool
  single : Bool
  literal : Bool
  deriving DecidableEq, Repr

/-- Characters that can stand for themselves outside double quotes. -/
def isPrintable (c : Char) : Bool :=
  let n := c.toNat
  n == 10 || (0x20 ≤ n && n ≤ 0x7e) || (0xa0 ≤ n && n != 0xfeff && n != 0xfffe && n != 0xffff)

def startsIndicator (c : Char) : Bool := "#,[]\x7b\x7d&*!|>'\"%@`".toList.contains c

/-- A gap is a blank, a line break, NUL, or the end of the text. -/
def isGap (c? : Option Char) : Bool := c?.all (fun c => isBlank c || isBreak c || c == '\x00')

/-- Whether a plain text would be taken for syntax: a document marker, an indicator in front, a
colon before a gap, or a number sign behind one. -/
def hasIndicator (cs : List Char) : Bool :=
  let marker := cs.take 3 == ['-', '-', '-'] || cs.take 3 == ['.', '.', '.']
  let front := match cs with
    | c :: rest => startsIndicator c || ((c == '?' || c == ':' || c == '-') && isGap rest.head?)
    | [] => false
  let pairs := cs.zip (cs.drop 1)
  marker || front || pairs.any (fun (a, b) => (a == ':' && isGap b) || (b == '#' && isGap a)) ||
    (cs.length > 1 && cs.getLast? == some ':')

def traits (cs : List Char) : Traits :=
  if cs.isEmpty then ⟨false, true, true, false⟩
  else
    let pairs := cs.zip (cs.drop 1)
    let edge (c? : Option Char) : Bool := c?.any (fun c => c == ' ' || isBreak c)
    let edges := edge cs.head? || edge cs.getLast?
    let multiline := cs.any isBreak
    let breakSpace := pairs.any (fun (a, b) => isBreak a && b == ' ')
    let unquotable := pairs.any (fun (a, b) => a == ' ' && isBreak b) || cs.any (!isPrintable ·)
    { multiline := multiline
      plain := !(edges || breakSpace || unquotable || multiline || hasIndicator cs)
      single := !(breakSpace || unquotable)
      literal := !(cs.getLast? == some ' ' || unquotable) }

def spaces (count : Nat) : List Char := List.replicate count ' '

/-- Line breaks stand as they are, and a line that holds anything is indented. -/
def indentLines (indent : Nat) : Bool → List Char → List Char
  | _, [] => []
  | fresh, c :: cs =>
    if isBreak c then c :: indentLines indent true cs
    else (if fresh then spaces indent else []) ++ c :: indentLines indent false cs

/-- In single quotes a quote is doubled, and a line feed that starts a run of breaks too. The
closing quote is indented like text. -/
def singleChars (indent : Nat) : Bool → List Char → List Char
  | fresh, [] => (if fresh then spaces indent else []) ++ ['\'']
  | fresh, c :: cs =>
    if isBreak c then
      (if !fresh && c == '\n' then ['\n'] else []) ++ c :: singleChars indent true cs
    else
      (if fresh then spaces indent else []) ++ (if c == '\'' then ['\'', '\''] else [c]) ++
        singleChars indent false cs

def single (indent : Nat) (cs : List Char) : List Char := '\'' :: singleChars indent false cs

def hexDigits (width n : Nat) : List Char :=
  let digits := (Nat.toDigits 16 n).map Char.toUpper
  List.replicate (width - digits.length) '0' ++ digits

def escapeName? : Char → Option Char
  | '\x00' => some '0'
  | '\x07' => some 'a'
  | '\x08' => some 'b'
  | '\t' => some 't'
  | '\n' => some 'n'
  | '\x0b' => some 'v'
  | '\x0c' => some 'f'
  | '\r' => some 'r'
  | '\x1b' => some 'e'
  | '"' => some '"'
  | '\\' => some '\\'
  | '\u0085' => some 'N'
  | '\u2028' => some 'L'
  | '\u2029' => some 'P'
  | _ => none

/-- In double quotes every character that is not printable has an escape. -/
def doubleChar (c : Char) : List Char :=
  match escapeName? c with
  | some name => ['\\', name]
  | none =>
    if isPrintable c then [c]
    else if c.toNat ≤ 0xff then '\\' :: 'x' :: hexDigits 2 c.toNat
    else if c.toNat ≤ 0xffff then '\\' :: 'u' :: hexDigits 4 c.toNat
    else '\\' :: 'U' :: hexDigits 8 c.toNat

def double (cs : List Char) : List Char := '"' :: cs.flatMap doubleChar ++ ['"']

/-- The indicators of a literal block: its indentation where the text starts with a space or a
break, and what becomes of the breaks at its end. -/
def literalHints (cs : List Char) : List Char :=
  let indentation := if cs.head?.any (fun c => c == ' ' || isBreak c) then ['2'] else []
  let chomping := match cs.reverse with
    | [] => ['-']
    | last :: rest =>
      if !isBreak last then ['-'] else if rest.head?.all isBreak then ['+'] else []
  indentation ++ chomping

def literal (indent : Nat) (cs : List Char) : List Char :=
  '|' :: literalHints cs ++ '\n' :: indentLines indent true cs

/-- Whether a text in plain style would read back as something else, or as a number to others. -/
def isAmbiguous (s : String) : Bool :=
  match Plain.value s with
  | .ok (.string _) => Plain.hasLeadingZero s.toList
  | _ => true

/-- A text in the first style that can hold it. A key of one line must be `compact`. -/
def text (indent : Nat) (compact : Bool) (s : String) : List Char :=
  let cs := s.toList
  let t := traits cs
  let quoted := if t.single then single indent cs else double cs
  if compact && t.multiline then double cs
  else if cs.contains '\n' then
    if t.literal && !compact then literal indent cs else double cs
  else if isAmbiguous s || !t.plain then quoted
  else cs

/-- A scalar, or an empty collection; `none` for what takes lines of its own. -/
def atom? (indent : Nat) (compact : Bool) : Value → Option (List Char)
  | .null => some "null".toList
  | .bool b => some (boolText b).toList
  | .number n => some n.text.toList
  | .string s => some (text indent compact s)
  | .sequence [] => some ['[', ']']
  | .mapping [] => some ['{', '}']
  | _ => none

/-- Keys that fit in front of their colon: single lines of at most 128 octets. -/
def isSimpleKey : Value → Bool
  | .string s => !(traits s.toList).multiline && s.utf8ByteSize ≤ 128
  | .sequence (_ :: _) | .mapping (_ :: _) | .tagged .. => false
  | _ => true

/-- Ends the line unless a break has ended it. -/
def endLine (cs : List Char) : List Char :=
  if cs.getLast?.any isBreak then cs else cs ++ ['\n']

mutual

/-- A value behind an indicator, whose collections start on the same line. -/
def inline (indent : Nat) : Value → List Char
  | .sequence (x :: xs) => ' ' :: items (indent + 2) (x :: xs)
  | .mapping (e :: es) => ' ' :: entries (indent + 2) (e :: es)
  | .tagged tag v => " !".toList ++ tag.toList ++ under (indent + 2) (indent + 2) v
  | v => ' ' :: endLine ((atom? (indent + 2) false v).getD [])

/-- A value behind a key or a tag, whose collections start on the next line, at their columns. -/
def under (forItems forEntries : Nat) : Value → List Char
  | .sequence (x :: xs) => '\n' :: spaces forItems ++ items forItems (x :: xs)
  | .mapping (e :: es) => '\n' :: spaces forEntries ++ entries forEntries (e :: es)
  | .tagged tag v => " !".toList ++ tag.toList ++ under forItems forEntries v
  | v => ' ' :: endLine ((atom? forEntries false v).getD [])

/-- The items of a sequence from its column on. -/
def items (indent : Nat) : List Value → List Char
  | [] => []
  | [x] => '-' :: inline indent x
  | x :: xs => '-' :: inline indent x ++ spaces indent ++ items indent xs

/-- The entries of a mapping from its column on. -/
def entries (indent : Nat) : List (Value × Value) → List Char
  | [] => []
  | [e] => entry indent e
  | e :: es => entry indent e ++ spaces indent ++ entries indent es

def entry (indent : Nat) : Value × Value → List Char
  | (k, v) =>
    if isSimpleKey k then
      (atom? (indent + 2) true k).getD [] ++ ':' :: under indent (indent + 2) v
    else '?' :: inline indent k ++ spaces indent ++ ':' :: inline indent v

end

end Writer

/-- A document that holds the value, ended by a line break. -/
def write : Value → String
  | .sequence (x :: xs) => String.ofList (Writer.items 0 (x :: xs))
  | .mapping (e :: es) => String.ofList (Writer.entries 0 (e :: es))
  | v => String.ofList ((Writer.under 0 0 v).drop 1)

end RouteForge.Yaml
