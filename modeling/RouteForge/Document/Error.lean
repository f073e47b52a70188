import RouteForge.Document.Basic
import RouteForge.Text.Hidden
import RouteForge.Yaml.Fault

/-! Why a text is rejected: as YAML, as a document, or as a value of the wrong shape. -/
namespace RouteForge

/-- The shape that was found where another was needed. -/
inductive Found where
  | text (s : String)
  | sequence
  | mapping
  | null
  deriving DecidableEq, Repr

def Found.name : Found → String
  | text s => "string " ++ Text.literal s
  | sequence => "sequence"
  | mapping => "map"
  | null => "unit value"

inductive Shape where
  | text
  | sequence
  | mapping
  | group
  | configuration
  deriving DecidableEq, Repr

def Shape.name : Shape → String
  | text => "a string"
  | sequence => "a sequence"
  | mapping => "a map"
  | group => "struct RouteGroup"
  | configuration => "struct Configuration"

inductive DecodeError where
  | yaml (text : String) (fault : Yaml.Fault)
  | shape (found : Found) (expected : Shape)
  | notAMapping (found : Document.Kind)
  | keyNotScalar (found : Document.Kind)
  | repeatedKey (key : String)
  | notUtf8
  deriving DecidableEq, Repr

def DecodeError.message [Yaml.Wording] : DecodeError → String
  | yaml text fault => Yaml.Wording.say text fault
  | shape found expected => "invalid type: " ++ found.name ++ ", expected " ++ expected.name
  | notAMapping found => "top-level value must be a mapping, found " ++ found.name
  | keyNotScalar found => "mapping keys must be scalars, found " ++ found.name
  | repeatedKey key => "duplicate mapping key '" ++ key ++ "'"
  | notUtf8 => "content is not valid UTF-8"

end RouteForge
