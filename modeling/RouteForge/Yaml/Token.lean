import RouteForge.Yaml.Cursor

/-! The tokens of a YAML text. Block structure, which indentation expresses, is explicit in them:
a block collection has a start and an end, and every key is announced. -/
namespace RouteForge.Yaml

/-- How a scalar was written. Only a plain one may stand for something else than its text. -/
inductive Style where
  | plain
  | quoted
  | block
  deriving DecidableEq, Repr

inductive Token where
  | streamEnd
  | version (major minor : Nat)
  | tagDirective (handle pre : String)
  | documentStart
  | documentEnd
  | blockSequenceStart
  | blockMappingStart
  | blockEnd
  | flowSequenceStart
  | flowSequenceEnd
  | flowMappingStart
  | flowMappingEnd
  | entry
  | flowEntry
  | key
  | value
  | alias (name : String)
  | anchor (name : String)
  | tag (handle suffix : String)
  | scalar (style : Style) (text : String)
  deriving DecidableEq, Repr

/-- A token with the place where it starts. -/
structure Placed where
  token : Token
  mark : Mark
  deriving DecidableEq, Repr

end RouteForge.Yaml
