import RouteForge.Yaml.Node

/-! From tokens to nodes, by descent. A node that is missing where the syntax allows it is an
empty plain scalar. The bound on the descent is twice the number of tokens, since every level
reads at least one of them. -/
namespace RouteForge.Yaml

/-- What is left to read, what was read of the document, and the names in force. -/
structure Composer where
  rest : List Placed
  handles : List (String × String)
  anchors : List (String × Nat)
  targets : List (Nat × Nat)
  nodes : List (Nat × Node)
  size : Nat

abbrev Compose (α : Type) := StateT Composer (Except Fault) α

namespace Compose

def token : Compose Token := do
  return match (← get).rest with
    | placed :: _ => placed.token
    | [] => .streamEnd

/-- Where the next token stands. -/
def mark : Compose Mark := do
  return match (← get).rest with
    | placed :: _ => placed.mark
    | [] => ⟨0, 0, 0⟩

def fail {α : Type} (problem : Problem) : Compose α := do throw ⟨problem, ← mark⟩

def skip : Compose Unit := modify fun s => { s with rest := s.rest.drop 1 }

/-- Counts the starts and ends that a node adds to the document. -/
def grow : Compose Unit := modify fun s => { s with size := s.size + 1 }

/-- A missing node. -/
def empty : Compose Node := do
  grow
  return .scalar (← mark) none .plain ""

/-- A name gets the number of names known before it, whether it was known or not. -/
def define (name : String) : Compose Unit := modify fun s =>
  let number := s.anchors.length
  { s with
    anchors := (name, number) :: s.anchors.filter (·.1 != name)
    targets := (number, s.size) :: s.targets }

/-- A tag without a handle is complete; else the handle stands for the text it was given. -/
def resolveTag (handle suffix : String) : Compose String := do
  if handle.isEmpty then return suffix
  match (← get).handles.lookup handle with
  | some pre => return pre ++ suffix
  | none => fail .tagHandleUndefined

def anchorHere : Compose (Option String) := do
  match ← token with
  | .anchor name => skip; return some name
  | _ => return none

def tagHere : Compose (Option (String × String)) := do
  match ← token with
  | .tag handle suffix => skip; return some (handle, suffix)
  | _ => return none

/-- The anchor and the tag of a node, in either order. -/
def properties : Compose (Option String × Option String) := do
  let anchor ← anchorHere
  let tag ← tagHere
  let anchor ← if anchor.isNone then anchorHere else pure anchor
  match tag with
  | none => return (anchor, none)
  | some (handle, suffix) => return (anchor, some (← resolveTag handle suffix))

/-- Where a node stands, which decides what may start it. -/
inductive Context where
  | flow
  | block
  | blockOrEntries
  deriving DecidableEq

/-- A lone `!` on a scalar is no tag. -/
def scalarTag (tag : Option String) : Option String :=
  if tag = some "!" then none else tag

mutual

def node : Nat → Context → Compose Node
  | 0, _ => fail .tooDeep
  | fuel + 1, context => do
    if let .alias name ← token then
      match (← get).anchors.lookup name with
      | some number =>
        let here ← mark
        skip
        grow
        return .alias here number
      | none => fail .anchorUnknown
    let (anchor, tag) ← properties
    let place := (← get).size
    let start ← token
    let here ← mark
    let named (make : Compose Node) : Compose Node := do
      match anchor with
      | none => make
      | some name =>
        define name
        let made ← make
        modify fun s => { s with nodes := (place, made) :: s.nodes }
        return made
    match start with
    | .scalar style text =>
      named do skip; grow; return .scalar here (scalarTag tag) style text
    | .flowSequenceStart =>
      named do skip; grow; return .sequence here tag (← flowItems fuel true)
    | .flowMappingStart =>
      named do skip; grow; return .mapping here tag (← flowEntries fuel true)
    | .entry =>
      if context = .blockOrEntries then
        named do grow; return .sequence here tag (← entries fuel)
      else if anchor.isSome || tag.isSome then named do grow; return .scalar here tag .plain ""
      else fail .nodeContent
    | .blockSequenceStart =>
      if context ≠ .flow then
        named do skip; grow; return .sequence here tag (← blockItems fuel)
      else if anchor.isSome || tag.isSome then named do grow; return .scalar here tag .plain ""
      else fail .nodeContent
    | .blockMappingStart =>
      if context ≠ .flow then
        named do skip; grow; return .mapping here tag (← blockEntries fuel)
      else if anchor.isSome || tag.isSome then named do grow; return .scalar here tag .plain ""
      else fail .nodeContent
    | _ =>
      if anchor.isSome || tag.isSome then named do grow; return .scalar here tag .plain ""
      else fail .nodeContent

/-- The items of a block sequence, up to and with its end. -/
def blockItems : Nat → Compose (List Node)
  | 0 => fail .tooDeep
  | fuel + 1 => do
    match ← token with
    | .entry =>
      skip
      let item ← match ← token with
        | .entry | .blockEnd => empty
        | _ => node fuel .block
      return item :: (← blockItems fuel)
    | .blockEnd => skip; grow; return []
    | _ => fail .entryExpected

/-- The items of a sequence at the column of the mapping around it, which has no end of its
own. -/
def entries : Nat → Compose (List Node)
  | 0 => fail .tooDeep
  | fuel + 1 => do
    match ← token with
    | .entry =>
      skip
      let item ← match ← token with
        | .entry | .key | .value | .blockEnd => empty
        | _ => node fuel .block
      return item :: (← entries fuel)
    | _ => grow; return []

/-- A key or a value of a block mapping behind its indicator. -/
def blockPart : Nat → Compose Node
  | 0 => fail .tooDeep
  | fuel + 1 => do
    match ← token with
    | .key | .value | .blockEnd => empty
    | _ => node fuel .blockOrEntries

def blockEntries : Nat → Compose (List (Node × Node))
  | 0 => fail .tooDeep
  | fuel + 1 => do
    match ← token with
    | .key =>
      skip
      let key ← blockPart fuel
      let value ← match ← token with
        | .value => skip; blockPart fuel
        | _ => empty
      return (key, value) :: (← blockEntries fuel)
    | .blockEnd => skip; grow; return []
    | _ => fail .keyExpected

/-- The items of a sequence in brackets; between two of them stands a comma. -/
def flowItems : Nat → Bool → Compose (List Node)
  | 0, _ => fail .tooDeep
  | fuel + 1, first => do
    if (← token) = .flowSequenceEnd then skip; grow; return []
    if !first then
      if (← token) ≠ .flowEntry then fail .sequenceEnd
      skip
    match ← token with
    | .flowSequenceEnd => skip; grow; return []
    | .key =>
      let here ← mark
      skip
      grow
      let entry ← flowPair fuel
      grow
      return .mapping here none [entry] :: (← flowItems fuel false)
    | _ =>
      let item ← node fuel .flow
      return item :: (← flowItems fuel false)

/-- A single entry as an item of a sequence. A missing key takes the token after it along. -/
def flowPair : Nat → Compose (Node × Node)
  | 0 => fail .tooDeep
  | fuel + 1 => do
    let key ← match ← token with
      | .value | .flowEntry | .flowSequenceEnd => skip; empty
      | _ => node fuel .flow
    let value ← match ← token with
      | .value =>
        skip
        match ← token with
        | .flowEntry | .flowSequenceEnd => empty
        | _ => node fuel .flow
      | _ => empty
    return (key, value)

/-- The entries of a mapping in braces. A node without a key indicator is a key without a
value. -/
def flowEntries : Nat → Bool → Compose (List (Node × Node))
  | 0, _ => fail .tooDeep
  | fuel + 1, first => do
    if (← token) = .flowMappingEnd then skip; grow; return []
    if !first then
      if (← token) ≠ .flowEntry then fail .mappingEnd
      skip
    match ← token with
    | .flowMappingEnd => skip; grow; return []
    | .key =>
      skip
      let key ← match ← token with
        | .value | .flowEntry | .flowMappingEnd => empty
        | _ => node fuel .flow
      let value ← match ← token with
        | .value =>
          skip
          match ← token with
          | .flowEntry | .flowMappingEnd => empty
          | _ => node fuel .flow
        | _ => empty
      return (key, value) :: (← flowEntries fuel false)
    | _ =>
      let key ← node fuel .flow
      let value ← empty
      return (key, value) :: (← flowEntries fuel false)

end

/-- Directives in front of a document. The two common handles are defined if they are not. -/
def directives : Nat → Bool → Compose Unit
  | 0, _ => return
  | fuel + 1, versioned => do
    match ← token with
    | .version major minor =>
      if versioned then fail .versionTwice
      if major ≠ 1 || (minor ≠ 1 && minor ≠ 2) then fail .version
      skip
      directives fuel true
    | .tagDirective handle pre =>
      if ((← get).handles.lookup handle).isSome then fail .tagHandleTwice
      modify fun s => { s with handles := (handle, pre) :: s.handles }
      skip
      directives fuel versioned
    | _ => return

def commonHandles : List (String × String) := [("!", "!"), ("!!", "tag:yaml.org,2002:")]

def skipDocumentEnds : Nat → Compose Unit
  | 0 => return
  | fuel + 1 => do
    if (← token) = .documentEnd then
      skip
      skipDocumentEnds fuel

/-- The content of a document behind its start marker. -/
def content (fuel : Nat) : Compose Node := do
  match ← token with
  | .version .. | .tagDirective .. | .documentStart | .documentEnd | .streamEnd => empty
  | _ => node fuel .block

/-- The only document of a stream, if there is one. The start marker may be missing where no
directive is. -/
def document (fuel : Nat) : Compose (Option Node) := do
  let root ← match ← token with
    | .streamEnd => return none
    | .version .. | .tagDirective .. | .documentStart => do
      directives fuel false
      modify fun s => { s with handles := s.handles ++ commonHandles }
      if (← token) ≠ .documentStart then fail .documentStart
      skip
      content fuel
    | _ => do
      modify fun s => { s with handles := s.handles ++ commonHandles }
      node fuel .block
  skipDocumentEnds fuel
  if (← token) ≠ .streamEnd then fail .severalDocuments
  return some root

end Compose

/-- The document of a token list; a stream without one has none. -/
def Tree.ofTokens (tokens : List Placed) : Except Fault (Option Tree) := do
  let start : Composer := ⟨tokens, [], [], [], [], 0⟩
  let (root?, s) ← (Compose.document (2 * tokens.length + 4)).run start
  return root?.map fun root => ⟨root, s.targets, s.nodes, s.size⟩

end RouteForge.Yaml
