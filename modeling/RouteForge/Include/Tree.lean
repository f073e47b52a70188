import RouteForge.Document.Merge
import RouteForge.Document.OfValue
import RouteForge.Error
import RouteForge.Sha256

/-! The tree of files that a configuration includes. The files are listed with each one before
those it includes, and their documents are merged with each one after them, so what a file says
itself overrides what it includes. -/
namespace RouteForge

/-- A file with its cleaned path, the content that is left without directives, and one child for
each directive. -/
inductive IncludeTree where
  | node (path : Path) (content : String) (includes : List IncludeTree)
  deriving Repr

namespace IncludeTree

def path : IncludeTree → Path
  | node p _ _ => p

def content : IncludeTree → String
  | node _ c _ => c

def includes : IncludeTree → List IncludeTree
  | node _ _ ts => ts

mutual

/-- Every file, each before those it includes. -/
def paths : IncludeTree → List Path
  | node p _ ts => p :: pathsOf ts

def pathsOf : List IncludeTree → List Path
  | [] => []
  | t :: rest => t.paths ++ pathsOf rest

end

def decode (path : Path) (content : String) : Except Error Document :=
  (Document.ofText content).mapError (.decode (.file path))

mutual

def merged : IncludeTree → Except Error Document
  | node p c ts => do
    let own ← decode p c
    let below ← mergedOnto .empty ts
    return below.merge own

/-- Merges trees one after the other into a document. -/
def mergedOnto (d : Document) : List IncludeTree → Except Error Document
  | [] => .ok d
  | t :: rest => do
    let next ← t.merged
    mergedOnto (d.merge next) rest

end

def rule : String := "-----------------------------\n"

def sheet (path : Path) (content : String) (below : List Path) : String :=
  rule ++ "File: " ++ path.text ++ "\nIncludes:" ++
    String.join (below.map (fun p => " " ++ p.text)) ++ "\n" ++ rule ++ content ++ "EOF\n\n"

mutual

/-- The files as text, each with its path, what it includes, and its content. -/
def dump : IncludeTree → String
  | node p c ts => sheet p c (ts.map path) ++ dumpOf ts

def dumpOf : List IncludeTree → String
  | [] => ""
  | t :: rest => t.dump ++ dumpOf rest

end

/-- The digests of all files in a row, read once more. -/
def hash (read : Path → Except Refusal ByteArray) (t : IncludeTree) : Except Error String := do
  let digests ← t.paths.mapM (fun p => (read p).mapError (.checksum p))
  return String.ofList (digests.flatMap (fun bytes => (Sha256.digest bytes).hex))

end IncludeTree
end RouteForge
