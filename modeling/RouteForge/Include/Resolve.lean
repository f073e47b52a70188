import RouteForge.FileTree.Basic
import RouteForge.Include.Directive
import RouteForge.Include.Tree

/-! Following directives from file to file. Every target is taken from one base directory, and a
file that is being resolved may not be included again further down the same branch. -/
namespace RouteForge.Include

/-- The files being resolved along one branch, the root first. -/
abbrev Chain := List Path

def Chain.check (chain : Chain) (path : Path) : Except Error Unit :=
  if List.any chain (·.same path) then .error (.includeCycle path (chain ++ [path])) else .ok ()

def sourceOf (path : Path) (bytes : ByteArray) : Except Error Source :=
  match String.fromUTF8? bytes with
  | some text => .ok (Source.ofText text.toList)
  | none => .error (.decode (.file path) .notUtf8)

def fetch (read : Path → Except Refusal ByteArray) (path : Path) : Except Error ByteArray :=
  (read path).mapError (.unreadable path)

/-- The place of a target. -/
def place (base target : Path) : Path := (base.join target).clean

/-- The tree of a file whose bytes are at hand, to a depth. Without a result the depth was not
enough. -/
def grow (read : Path → Except Refusal ByteArray) (base : Path) :
    Nat → Chain → Path → ByteArray → ExceptT Error Option IncludeTree
  | 0, _, _, _ => ExceptT.mk none
  | depth + 1, chain, target, bytes => do
    let path := place base target
    Chain.check chain path
    let source ← sourceOf path bytes
    let chain := chain ++ [path]
    let includes ← source.targets.mapM (fun target => do
      let path := place base target
      Chain.check chain path
      let bytes ← fetch read path
      grow read base depth chain target bytes)
    return .node path (String.ofList source.content) includes

def targetCount (bytes : ByteArray) : Nat :=
  match String.fromUTF8? bytes with
  | some text => (Source.ofText text.toList).targets.length
  | none => 0

/-- All directives of a file tree. -/
def targetTotal (t : FileTree) : Nat :=
  t.entries.foldr (fun (_, e) n => match e with
    | .file bytes _ => targetCount bytes + n
    | _ => n) 0

/-- A depth that is enough: the files of one branch differ, and behind the first each is the target
of some directive. -/
def depth (t : FileTree) (bytes : ByteArray) : Nat := targetTotal t + targetCount bytes + 2

def resolve (t : FileTree) (base : Path) (chain : Chain) (target : Path) (bytes : ByteArray) :
    Except Error IncludeTree :=
  (grow t.read base (depth t bytes) chain target bytes).run.getD
    (.error (.includeCycle (place base target) chain))

/-- Where the files of a configuration are looked up: the directory of its path. -/
def baseOf (config : Path) : Path := config.parent?.getD ⟨[]⟩

/-- The name of a configuration in its directory. A path that ends in no name is taken whole. -/
def nameOf (config : Path) : Path := (config.fileName?.map Path.mk).getD config

def resolveRoot (t : FileTree) (config : Path) : Except Error IncludeTree := do
  let path := place (baseOf config) (nameOf config)
  let bytes ← fetch t.read path
  resolve t (baseOf config) [] (nameOf config) bytes

/-- A file whose directives have been read, and how many it has. -/
structure Visit where
  path : Path
  includes : Nat
  deriving DecidableEq, Repr

/-- The files that are read to a depth, in their order, up to the first that stops the search. The
second part says whether none did. -/
def visits (read : Path → Except Refusal ByteArray) (base : Path) :
    Nat → Chain → Path → ByteArray → List Visit × Bool
  | 0, _, _, _ => ([], false)
  | depth + 1, chain, target, bytes =>
    let path := place base target
    match Chain.check chain path, sourceOf path bytes with
    | .ok (), .ok source =>
      source.targets.foldl (fun (seen, whole) target =>
        if !whole then (seen, whole)
        else match Chain.check (chain ++ [path]) (place base target), read (place base target) with
          | .ok (), .ok bytes =>
            let (more, whole) := visits read base depth (chain ++ [path]) target bytes
            (seen ++ more, whole)
          | _, _ => (seen, false)) ([⟨path, source.targets.length⟩], true)
    | _, _ => ([], false)

def visitsOf (t : FileTree) (config : Path) : List Visit :=
  match t.read (place (baseOf config) (nameOf config)) with
  | .error _ => []
  | .ok bytes => (visits t.read (baseOf config) (depth t bytes) [] (nameOf config) bytes).1

end RouteForge.Include
