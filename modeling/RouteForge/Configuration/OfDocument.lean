import RouteForge.Configuration.Basic
import RouteForge.Document.OfValue
import RouteForge.Error

/-! Reading a configuration from a merged document. Every scalar counts by its text. Null stands
for an empty list, an empty mapping or a group of defaults, but not for a text. Fields are taken in
the order of their names, unknown ones are ignored, and the first misfit ends the reading. Route
lines are read after everything else has its shape. -/
namespace RouteForge

namespace Document

def found : Document → Found
  | .scalar s => match s.text? with
    | some text => .text text
    | none => .null
  | .sequence _ => .sequence
  | .mapping _ => .mapping

def misfit {α : Type} (d : Document) (expected : Shape) : Except DecodeError α :=
  .error (.shape d.found expected)

def readText (d : Document) : Except DecodeError String :=
  match d with
  | .scalar (.text s) => .ok s
  | d => d.misfit .text

def readList {α : Type} (readItem : Document → Except DecodeError α) :
    Document → Except DecodeError (List α)
  | .sequence items => items.mapM readItem
  | .scalar .null => .ok []
  | d => d.misfit .sequence

def readTexts (d : Document) : Except DecodeError (List String) := d.readList readText

def readTextFields : Document → Except DecodeError (Fields String)
  | .mapping fields => fields.mapM (fun (name, d) => (name, ·) <$> d.readText)
  | .scalar .null => .ok []
  | d => d.misfit .mapping

end Document

namespace RouteGroup

def set (g : RouteGroup) (name : String) (d : Document) : Except DecodeError RouteGroup :=
  match name with
  | "base" => do return { g with base := ← d.readText }
  | "paths" => do return { g with lines := ← d.readTexts }
  | "use" => do return { g with uses := ← d.readTexts }
  | _ => .ok g

def ofDocument : Document → Except DecodeError RouteGroup
  | .mapping fields => fields.foldlM (fun g (name, d) => g.set name d) {}
  | .scalar .null => .ok {}
  | d => d.misfit .group

/-- The group with its lines read as routes. -/
def withRoutes (g : RouteGroup) : Except Error RouteGroup := do
  let routes ← g.lines.mapM (fun line => (Route.parse line).mapError (.route line))
  return { g with routes := routes }

end RouteGroup

namespace Configuration

def set (c : Configuration) (name : String) (d : Document) : Except DecodeError Configuration :=
  match name with
  | "args" => do return { c with args := ← d.readTextFields }
  | "imports" => do return { c with imports := ← d.readTexts }
  | "mux" => do return { c with mux := ← d.readText }
  | "out" => do return { c with out := ← d.readText }
  | "package" => do return { c with package := ← d.readText }
  | "routes" => do return { c with groups := ← d.readList RouteGroup.ofDocument }
  | "vars" => do return { c with vars := ← d.readTextFields }
  | _ => .ok c

def ofTextDocument : Document → Except DecodeError Configuration
  | .mapping fields => fields.foldlM (fun c (name, d) => c.set name d) {}
  | .scalar .null => .ok {}
  | d => d.misfit .configuration

def ofDocument (d : Document) : Except Error Configuration := do
  let c ← (ofTextDocument d.asText).mapError (.decode .merged)
  return { c with groups := ← c.groups.mapM RouteGroup.withRoutes }

end Configuration
end RouteForge
