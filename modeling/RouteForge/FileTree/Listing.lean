import RouteForge.FileTree.Basic

/-! Listing, installing and removing what lies in a file tree. -/
namespace RouteForge.FileTree

/-- The text of a location, with a slash behind a directory. -/
def entryName (l : Location) (e : Entry) : String :=
  "/".intercalate (l.map String.ofList) ++ if e = .directory then "/" else ""

/-- Everything below a location, each directory before what lies in it, and names in order. -/
def below (t : FileTree) (l : Location) : List (Location × Entry) :=
  let inside := (t.entries.filter (fun e => l.isPrefixOf e.1 && e.1 != l)).map
    (fun (m, e) => (m.drop l.length, e))
  inside.mergeSort (fun a b => !decide (b.1 < a.1))

def listing (t : FileTree) : List String := (t.below t.here).map (fun (l, e) => entryName l e)

/-- A file with its mode, and the directories that it needs. -/
def install (t : FileTree) (p : Path) (bytes : ByteArray) (executable : Bool) :
    FileTree × Except Refusal Unit :=
  match t.makeDirectories (p.parent?.getD ⟨[]⟩) with
  | (t, .error reason) => (t, .error reason)
  | (t, .ok ()) =>
    match t.write p bytes with
    | (written, .error reason) => (written, .error reason)
    | (written, .ok ()) =>
      match executable, written.locate p with
      | true, .ok l => (written.set l (.file bytes true), .ok ())
      | _, _ => (written, .ok ())

/-- Removes what a path leads to, with all that lies below it. -/
def remove (t : FileTree) (p : Path) : Except Refusal FileTree := do
  return t.drop (← t.locate p)

end RouteForge.FileTree
