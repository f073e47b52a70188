import RouteForge.Text.Blank

/-! The words and operators of a shell script. What a substitution holds stays a text until the
script runs. -/
namespace RouteForge.Shell

/-- A piece of a word. Pieces in quotes are not split. -/
inductive Piece where
  | text (cs : List Char) (quoted : Bool)
  | variable (name : List Char) (quoted : Bool)
  | arithmetic (cs : List Char) (quoted : Bool)
  | output (script : List Char) (quoted : Bool)
  deriving DecidableEq, Repr

abbrev Word := List Piece

inductive Token where
  | word (w : Word)
  | op (name : String)
  | newline
  deriving DecidableEq, Repr

def isNameStart (c : Char) : Bool := c.isAlpha || c = '_'

def isNameChar (c : Char) : Bool := c.isAlphanum || c = '_'

/-- Parameters named by one character. -/
def isSpecial (c : Char) : Bool := c.isDigit || "@*#?$!-".toList.contains c

/-- The text up to the parenthesis that closes `depth` open ones, and what follows it. Quotes hide
parentheses. -/
def enclosed : Nat → Option Char → List Char → Option (List Char × List Char)
  | _, _, [] => none
  | depth, some q, c :: cs =>
    (enclosed depth (if c = q then none else some q) cs).map (fun (t, r) => (c :: t, r))
  | depth, none, c :: cs =>
    if c = ')' then
      if depth ≤ 1 then some ([], cs)
      else (enclosed (depth - 1) none cs).map (fun (t, r) => (c :: t, r))
    else if c = '(' then (enclosed (depth + 1) none cs).map (fun (t, r) => (c :: t, r))
    else if c = '\'' ∨ c = '"' then (enclosed depth (some c) cs).map (fun (t, r) => (c :: t, r))
    else (enclosed depth none cs).map (fun (t, r) => (c :: t, r))

/-- The text up to a character, and what follows it. -/
def upTo (stop : Char) (cs : List Char) : Option (List Char × List Char) :=
  match cs.dropWhile (· ≠ stop) with
  | _ :: rest => some (cs.takeWhile (· ≠ stop), rest)
  | [] => none

/-- What follows a dollar sign. -/
def dollar (quoted : Bool) (cs : List Char) : Piece × List Char :=
  let plain := (.text ['$'] quoted, cs)
  match cs with
  | '(' :: '(' :: rest => match enclosed 2 none rest with
    | some (text, rest) => (.arithmetic (text.take (text.length - 1)) quoted, rest)
    | none => plain
  | '(' :: rest => match enclosed 1 none rest with
    | some (text, rest) => (.output text quoted, rest)
    | none => plain
  | '{' :: rest => match upTo '}' rest with
    | some (name, rest) => (.variable name quoted, rest)
    | none => plain
  | c :: rest =>
    if isSpecial c then (.variable [c] quoted, rest)
    else if isNameStart c then (.variable (cs.takeWhile isNameChar) quoted, cs.dropWhile isNameChar)
    else plain
  | [] => plain

/-- The pieces up to the closing double quote. A backslash hides what would end or expand here. -/
def inQuotes : Nat → List Char → List Piece × List Char
  | 0, cs => ([], cs)
  | _ + 1, [] => ([], [])
  | fuel + 1, c :: cs =>
    if c = '"' then ([], cs)
    else
      let (piece, rest) := match c, cs with
        | '\\', d :: rest =>
          if "$`\"\\".toList.contains d then (.text [d] true, rest)
          else if d = '\n' then (.text [] true, rest)
          else (.text ['\\', d] true, rest)
        | '$', cs => dollar true cs
        | '`', cs => match upTo '`' cs with
          | some (script, rest) => (.output script true, rest)
          | none => (.text ['`'] true, cs)
        | c, cs => (Piece.text [c] true, cs)
      let (pieces, rest) := inQuotes fuel rest
      (piece :: pieces, rest)

def endsWord (c : Char) : Bool := " \t\n;&|<>()".toList.contains c

/-- A word from its first character to the blank or operator behind it. -/
def word : Nat → List Char → Word × List Char
  | 0, cs => ([], cs)
  | _ + 1, [] => ([], [])
  | fuel + 1, c :: cs =>
    if endsWord c then ([], c :: cs)
    else
      let (pieces, rest) := match c, cs with
        | '\'', cs => match upTo '\'' cs with
          | some (text, rest) => ([Piece.text text true], rest)
          | none => ([.text cs true], [])
        | '"', cs =>
          let (pieces, rest) := inQuotes cs.length cs
          (.text [] true :: pieces, rest)
        | '\\', '\n' :: rest => ([], rest)
        | '\\', d :: rest => ([.text [d] true], rest)
        | '$', cs => let (piece, rest) := dollar false cs; ([piece], rest)
        | '`', cs => match upTo '`' cs with
          | some (script, rest) => ([.output script false], rest)
          | none => ([.text ['`'] false], cs)
        | c, cs => ([.text [c] false], cs)
      let (more, rest) := word fuel rest
      (pieces ++ more, rest)

/-- The operators, each before those that it starts with. -/
def operators : List String :=
  ["2>&1", "1>&2", ">&2", ">&1", "2>>", "2>", "1>>", "1>", "&&", "||", ";;", ">>", ";", "&", "|",
    "<", ">", "(", ")"]

def operator? (cs : List Char) : Option (String × List Char) :=
  operators.findSome? (fun o =>
    if o.toList.isPrefixOf cs then some (o, cs.drop o.length) else none)

/-- A number sign comments where a word could start. -/
def tokens : Nat → List Char → List Token
  | 0, _ => []
  | _ + 1, [] => []
  | fuel + 1, c :: cs =>
    if c = ' ' ∨ c = '\t' then tokens fuel cs
    else if c = '\n' then .newline :: tokens fuel cs
    else if c = '#' then tokens fuel (cs.dropWhile (· ≠ '\n'))
    else match operator? (c :: cs) with
      | some (name, rest) => .op name :: tokens fuel rest
      | none =>
        let (w, rest) := word (cs.length + 1) (c :: cs)
        .word w :: tokens fuel rest

end RouteForge.Shell
