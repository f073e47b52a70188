import RouteForge.Document.Error
import RouteForge.FileTree.Refusal
import RouteForge.Formatter.Status
import RouteForge.Path
import RouteForge.Route

/-! What stops a build. Each failure names the place where it arose and, where there is one, the
reason underneath. -/
namespace RouteForge

/-- Where a document came from. -/
inductive Origin where
  | file (path : Path)
  | merged
  deriving DecidableEq, Repr

def Origin.name : Origin → String
  | file path => "'" ++ path.text ++ "'"
  | merged => "merged configuration"

inductive Error where
  | includeCycle (path : Path) (chain : List Path)
  | unreadable (path : Path) (reason : Refusal)
  | decode (origin : Origin) (reason : DecodeError)
  | route (line : String) (reason : Route.Error)
  | unwritable (path : Path) (reason : Refusal)
  | format (path : Path) (status : Status)
  | checksum (path : Path) (reason : Refusal)
  deriving DecidableEq, Repr

namespace Error

variable [Yaml.Wording]

def message : Error → String
  | includeCycle path chain =>
    "include loop detected, '" ++ path.text ++ "' is already included (" ++
      " -> ".intercalate (chain.map Path.text) ++ ")"
  | unreadable path reason => "unable to read '" ++ path.text ++ "': " ++ reason.message
  | decode origin reason => "error decoding " ++ origin.name ++ ": " ++ reason.message
  | route line reason => "error parsing route path '" ++ line ++ "': " ++ reason.message
  | unwritable path reason => "error writing '" ++ path.text ++ "': " ++ reason.message
  | format path status => "formatting '" ++ path.text ++ "' failed with " ++ status.text
  | checksum path reason =>
    "error calculating checksum of '" ++ path.text ++ "': " ++ reason.message

/-- The reason underneath, which the message ends with too. -/
def reason? : Error → Option String
  | includeCycle .. | format .. => none
  | unreadable _ reason | unwritable _ reason | checksum _ reason => some reason.message
  | decode _ reason => some reason.message
  | route _ reason => some reason.message

end Error
end RouteForge
