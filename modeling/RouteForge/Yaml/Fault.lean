/-! What can be wrong with a YAML text, and where. Every fault is found by one of four stages:
the characters, the tokens, the nodes, or the values. -/
namespace RouteForge.Yaml

/-- A position in a text, counted in characters from zero. -/
structure Mark where
  index : Nat
  line : Nat
  column : Nat
  deriving DecidableEq, Repr, Inhabited

inductive Problem where
  | controlCharacter
  | keyWithoutValue
  | entryNotAllowed
  | keyNotAllowed
  | valueNotAllowed
  | tokenStart
  | directiveName
  | directiveUnknown
  | versionNumber
  | lineEnd
  | tagHandle
  | tagUri
  | uriEscape
  | tagEnd
  | anchorName
  | indentationZero
  | indentationTab
  | documentInQuotes
  | unclosedQuotes
  | escape
  | hexNumber
  | codePoint
  | colonInFlow
  | documentStart
  | versionTwice
  | version
  | tagHandleTwice
  | tagHandleUndefined
  | nodeContent
  | entryExpected
  | keyExpected
  | sequenceEnd
  | mappingEnd
  | severalDocuments
  | anchorUnknown
  | tooDeep
  | tooManyAliases
  | scalarForTag (tag : String)
  | integerRange
  | repeatedKey (key : String)
  deriving DecidableEq, Repr

def Problem.message : Problem → String
  | controlCharacter => "control characters are not allowed"
  | keyWithoutValue => "a simple key has no ':' after it"
  | entryNotAllowed => "a block sequence entry is not allowed here"
  | keyNotAllowed => "a mapping key is not allowed here"
  | valueNotAllowed => "a mapping value is not allowed here"
  | tokenStart => "no token starts with this character"
  | directiveName => "a directive has no name"
  | directiveUnknown => "the directive is unknown"
  | versionNumber => "a version is two numbers with a '.' between them"
  | lineEnd => "a comment or a line break is expected"
  | tagHandle => "a tag handle starts and ends with '!'"
  | tagUri => "a tag is expected"
  | uriEscape => "a tag holds a bad escape"
  | tagEnd => "a tag ends with a blank"
  | anchorName => "an anchor name is letters, digits, '_' and '-'"
  | indentationZero => "an indentation indicator is not zero"
  | indentationTab => "a tab cannot indent"
  | documentInQuotes => "a document starts or ends inside quotes"
  | unclosedQuotes => "quotes are not closed"
  | escape => "the escape is unknown"
  | hexNumber => "a hexadecimal number is expected"
  | codePoint => "the number is no character"
  | colonInFlow => "a ':' is not allowed here"
  | documentStart => "a document start is expected"
  | versionTwice => "the version is given twice"
  | version => "the version is not supported"
  | tagHandleTwice => "a tag handle is defined twice"
  | tagHandleUndefined => "a tag handle is not defined"
  | nodeContent => "a value is expected"
  | entryExpected => "a '-' is expected"
  | keyExpected => "a key is expected"
  | sequenceEnd => "a ',' or a ']' is expected"
  | mappingEnd => "a ',' or a closing brace is expected"
  | severalDocuments => "there is more than one document"
  | anchorUnknown => "an alias names no anchor"
  | tooDeep => "the values are nested too deeply"
  | tooManyAliases => "the aliases expand too often"
  | scalarForTag tag => "the scalar does not fit the tag " ++ tag
  | integerRange => "an integer is out of range"
  | repeatedKey key => "a mapping has the key " ++ key ++ " twice"

structure Fault where
  problem : Problem
  mark : Mark
  deriving DecidableEq, Repr

/-- Lines and columns are shown from one. On the first character of a text, and where characters are
only counted, the index stands alone. -/
def Mark.place (m : Mark) : String :=
  if m.line = 0 ∧ m.column = 0 then "position " ++ toString m.index
  else "line " ++ toString (m.line + 1) ++ " column " ++ toString (m.column + 1)

def Fault.message (f : Fault) : String := f.problem.message ++ " at " ++ f.mark.place

/-- What a reader says of a text that it cannot read, and of the fault in it. The words are the
reader's own, and nothing depends on which they are. -/
class Wording where
  say : String → Fault → String

/-- The words of this reader. -/
instance (priority := low) : Wording := ⟨fun _ fault => fault.message⟩

end RouteForge.Yaml
