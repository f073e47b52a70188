import RouteForge.Yaml.Token.Scalar

/-! Directives, tags and anchors: everything in a YAML text that is about a value and not part
of it. -/
namespace RouteForge.Yaml.Property

def isUriChar (bracketed : Bool) (c : Char) : Bool :=
  isNameChar c || ";/?:@&=+$.!~*'()".toList.contains c || (bracketed && ",[]".toList.contains c)

/-- The octet of a `%` escape, which has two hexadecimal digits. -/
def octet? (c : Cursor) : Option Nat :=
  if c.at? 0 '%' then Scalar.hexNumber? 2 ((c.rest.drop 1).take 2) else none

/-- How many octets a character has whose first octet this is. -/
def octetCount? (first : Nat) : Option Nat :=
  if first < 0x80 then some 1
  else if first / 32 = 6 then some 2
  else if first / 16 = 14 then some 3
  else if first / 8 = 30 then some 4
  else none

def tailOctets : Nat → Nat → Cursor → Except Problem (Nat × Cursor)
  | 0, n, c => .ok (n, c)
  | count + 1, n, c =>
    match octet? c with
    | some b => if b / 64 = 2 then tailOctets count (n * 64 + b % 64) (c.skip 3) else .error .uriEscape
    | none => .error .uriEscape

/-- The character that a run of `%` escapes spells. -/
def escapedChar (c : Cursor) : Except Problem (Char × Cursor) :=
  match octet? c with
  | none => .error .uriEscape
  | some first =>
    match octetCount? first with
    | none => .error .uriEscape
    | some count => do
      let lead := if count = 1 then first else first % (1 <<< (7 - count))
      let (n, c) ← tailOctets (count - 1) lead (c.skip 3)
      match Scalar.charOf? n with
      | some x => return (x, c)
      | none => throw .uriEscape

def uriChars (bracketed : Bool) : Nat → Cursor → List Char → Except Problem (List Char × Cursor)
  | 0, c, read => .ok (read.reverse, c)
  | fuel + 1, c, read =>
    match c.peek? 0 with
    | some '%' =>
      match escapedChar c with
      | .error e => .error e
      | .ok (x, c) => uriChars bracketed fuel c (x :: read)
    | some x =>
      if isUriChar bracketed x then uriChars bracketed fuel (c.skip 1) (x :: read)
      else .ok (read.reverse, c)
    | none => .ok (read.reverse, c)

/-- The characters of a tag behind its head; head and rest together are not empty. -/
def uri (bracketed : Bool) (head : List Char) (c : Cursor) :
    Except Problem (List Char × Cursor) := do
  let (text, after) ← uriChars bracketed (c.rest.length + 1) c []
  if head.isEmpty && after.mark.index == c.mark.index then throw .tagUri
  return (head.drop 1 ++ text, after)

/-- The part of a tag up to its second `!`, or up to where its name characters end. -/
def handle (directive : Bool) (c : Cursor) : Except Problem (List Char × Cursor) :=
  if !c.at? 0 '!' then .error .tagHandle
  else
    let (name, after) := (c.skip 1).takeWhile isNameChar
    if after.at? 0 '!' then .ok ('!' :: name ++ ['!'], after.skip 1)
    else if directive && !name.isEmpty then .error .tagHandle
    else .ok ('!' :: name, after)

/-- A handle with both its marks, which a directive may define. -/
def isHandle (cs : List Char) : Bool := 2 ≤ cs.length && cs.getLast? == some '!'

/-- A tag as handle and suffix: verbatim between angle brackets with no handle, with its own
handle, or with the primary one. A lone `!` is a suffix without a handle. -/
def tag (flow : Bool) (c : Cursor) : Except Problem (Token × Cursor) := do
  let (head, suffix, c) ←
    if c.at? 1 '<' then do
      let (suffix, c) ← uri true [] (c.skip 2)
      if !c.at? 0 '>' then throw .tagEnd
      pure ([], suffix, c.skip 1)
    else do
      let (head, after) ← handle false c
      if isHandle head then
        let (suffix, c) ← uri false [] after
        pure (head, suffix, c)
      else
        let (suffix, c) ← uri false head after
        pure (if suffix.isEmpty then ([], ['!'], c) else (['!'], suffix, c))
  if !c.gapAt 0 && !(flow && c.at? 0 ',') then throw .tagEnd
  return (.tag (String.ofList head) (String.ofList suffix), c)

/-- The name behind `&` or `*`. -/
def anchorName (c : Cursor) : Except Problem (String × Cursor) :=
  let (name, after) := (c.skip 1).takeWhile isNameChar
  if name.isEmpty || !(after.gapAt 0 || (after.peek? 0).any "?:,]\x7d%@`".toList.contains) then
    .error .anchorName
  else .ok (String.ofList name, after)

def versionNumber (c : Cursor) : Except Problem (Nat × Cursor) :=
  let (digits, after) := c.takeWhile Char.isDigit
  if digits.isEmpty || 9 < digits.length then .error .versionNumber
  else .ok (digits.foldl (fun n d => n * 10 + (d.toNat - 48)) 0, after)

def version (c : Cursor) : Except Problem (Token × Cursor) := do
  let (major, c) ← versionNumber c.skipBlanks
  if !c.at? 0 '.' then throw .versionNumber
  let (minor, c) ← versionNumber (c.skip 1)
  return (.version major minor, c)

def tagDirective (c : Cursor) : Except Problem (Token × Cursor) := do
  let (name, c) ← handle true c.skipBlanks
  if !c.blankAt 0 then throw .tagHandle
  let (pre, c) ← uri true [] c.skipBlanks
  if !c.gapAt 0 then throw .tagUri
  return (.tagDirective (String.ofList name) (String.ofList pre), c)

/-- A directive, from its `%` on, with the rest of its line. -/
def directive (c : Cursor) : Except Problem (Token × Cursor) := do
  let (name, c) := (c.skip 1).takeWhile isNameChar
  if name.isEmpty || !c.gapAt 0 then throw .directiveName
  let (token, c) ←
    if name = "YAML".toList then version c
    else if name = "TAG".toList then tagDirective c
    else throw .directiveUnknown
  let c := c.skipBlanks.skipComment
  if !c.breakOrEnd then throw .lineEnd
  return (token, c.skipLine)

end RouteForge.Yaml.Property
