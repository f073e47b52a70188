import RouteForge.Text.Fields

/-! Paths as texts of names between slashes. A path is read as a list of components: repeated
slashes and inner dots say nothing, and a dot counts only at the front of a relative path. -/
namespace RouteForge

structure Path where
  chars : List Char
  deriving DecidableEq, Repr, Inhabited

namespace Path

def ofText (text : String) : Path := ⟨text.toList⟩

def text (p : Path) : String := String.ofList p.chars

inductive Component where
  | root
  | here
  | up
  | name (chars : List Char)
  deriving DecidableEq, Repr

def Component.chars : Component → List Char
  | root => ['/']
  | here => ['.']
  | up => ['.', '.']
  | name chars => chars

/-- The component of a segment; empty segments and dots have none. -/
def segment? (segment : List Char) : Option Component :=
  if segment = [] ∨ segment = ['.'] then none
  else if segment = ['.', '.'] then some .up
  else some (.name segment)

/-- The first segment is empty exactly when the path starts with a slash. -/
def first? (segment : List Char) (others : Bool) : Option Component :=
  if segment = [] then if others then some .root else none
  else if segment = ['.'] then some .here
  else segment? segment

def segments (p : Path) : List (List Char) := Text.splitOn '/' p.chars

def components (p : Path) : List Component :=
  match p.segments with
  | [] => []
  | first :: rest => (first? first (!rest.isEmpty)).toList ++ rest.filterMap segment?

def isAbsolute (p : Path) : Bool := p.chars.head? == some '/'

/-- Whether two paths have the same components. -/
def same (p q : Path) : Bool := p.components == q.components

/-- An absolute path replaces the one it is joined to. -/
def join (base p : Path) : Path :=
  if p.isAbsolute || base.chars.isEmpty then p
  else if base.chars.getLast? = some '/' then ⟨base.chars ++ p.chars⟩
  else ⟨base.chars ++ '/' :: p.chars⟩

/-- Segments up to the last that is a component. -/
def settled (segments : List (List Char)) : List (List Char) :=
  (segments.reverse.dropWhile (fun s => (segment? s).isNone)).reverse

/-- The text of segments behind the first one. -/
def ofSegments (first : List Char) (rest : List (List Char)) : Path :=
  if first = [] ∧ rest = [] then ⟨['/']⟩ else ⟨first ++ rest.flatMap ('/' :: ·)⟩

/-- The path in front of the last component, as it is written. Neither the root nor the empty path
has one. -/
def parent? (p : Path) : Option Path :=
  match p.segments with
  | [] => none
  | first :: rest =>
    match (settled rest).reverse with
    | _ :: before => some (ofSegments first (settled before.reverse))
    | [] => if first = [] then none else some ⟨[]⟩

def ancestorsWithin : Nat → Path → List Path
  | 0, p => [p]
  | n + 1, p => p :: (p.parent?.map (ancestorsWithin n)).getD []

/-- The path and all paths in front of it, upward. Each is shorter than the one before. -/
def ancestors (p : Path) : List Path := p.ancestorsWithin p.chars.length

/-- The last component, if it is a name. -/
def fileName? (p : Path) : Option (List Char) :=
  match p.components.getLast? with
  | some (.name chars) => some chars
  | _ => none

/-- One component on top of those before it, last first. Nothing lies above the root. -/
def settle : List Component → Component → List Component
  | stack, .here => stack
  | .name _ :: stack, .up => stack
  | .root :: stack, .up => .root :: stack
  | stack, c => c :: stack

def ofComponents (components : List Component) : Path :=
  components.foldl (fun p c => p.join ⟨c.chars⟩) ⟨[]⟩

/-- The path without dots, and without a name that an ascent takes back. It is found in the text
alone, whatever the names stand for. -/
def clean (p : Path) : Path :=
  match p.components.foldl settle [] with
  | [] => ⟨['.']⟩
  | stack => ofComponents stack.reverse

/-- The last name of a path, or nothing. -/
def label (p : Path) : String := String.ofList (p.fileName?.getD [])

end Path
end RouteForge
