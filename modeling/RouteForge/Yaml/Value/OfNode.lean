import RouteForge.Text.Hidden
import RouteForge.Yaml.Node
import RouteForge.Yaml.Value.Plain

/-! From nodes to values. Aliases are replaced by what they stand for, plain scalars are read, and
tags are applied. Collections may be nested 128 deep, an alias that stands inside its own target
therefore never ends well, and aliases may be replaced a hundred times for each start and end in
the document. -/
namespace RouteForge.Yaml

/-- Aliases replaced so far. -/
abbrev Expand (α : Type) := StateT Nat (Except Fault) α

def boolTag : String := "tag:yaml.org,2002:bool"
def integerTag : String := "tag:yaml.org,2002:int"
def floatTag : String := "tag:yaml.org,2002:float"
def nullTag : String := "tag:yaml.org,2002:null"

/-- The name of a tag of the document's own, without its mark unless it is nothing else. -/
def localTag? (tag : String) : Option String :=
  match tag.toList with
  | ['!'] => some "!"
  | '!' :: name => some (String.ofList name)
  | _ => none

def plainValue (style : Style) (text : String) : Except Problem Value :=
  if style = .plain then Plain.value text else .ok (.string text)

/-- The value of a scalar whose tag asks for one, if its text has it. -/
def forced (tag : String) : Option Value → Except Problem Value
  | some v => .ok v
  | none => .error (.scalarForTag tag)

/-- The four core tags force a type, whatever the quotes. A local tag is kept and does not hide
what a plain scalar stands for; any other tag makes a text of it. -/
def scalarValue (tag : Option String) (style : Style) (text : String) : Except Problem Value :=
  match tag with
  | none => plainValue style text
  | some tag =>
    let cs := text.toList
    if let some name := localTag? tag then do
      return .tagged name (← plainValue style text)
    else if tag = boolTag then forced tag ((Plain.bool? cs).map .bool)
    else if tag = integerTag then do
      forced tag ((← Plain.integerValue? cs).map (.number ∘ .integer))
    else if tag = floatTag then forced tag ((Plain.float? cs).map (.number ∘ .float))
    else if tag = nullTag then forced tag (if Plain.isNull cs then some .null else none)
    else return .string text

/-- Keeps a local tag around a collection. -/
def withTag (tag : Option String) (v : Value) : Value :=
  match tag.bind localTag? with
  | some name => .tagged name v
  | none => v

/-- A fault in what a node holds shows where the node starts. -/
def marked {α : Type} (mark : Mark) (x : Except Problem α) : Except Fault α :=
  x.mapError (⟨·, mark⟩)

/-- The node that an alias stands for; every other node stands for itself. -/
def expand (t : Tree) (n : Node) : Expand Node := do
  match n with
  | .alias mark number =>
    let used := (← get) + 1
    if 100 * t.size < used then throw ⟨.tooManyAliases, mark⟩
    set used
    match t.target? number with
    | some target => return target
    | none => throw ⟨.anchorUnknown, mark⟩
  | _ => return n

/-- A key as it is named where it stands twice. -/
def keyText : Value → String
  | .null => "null"
  | .bool b => boolText b
  | .number n => n.text
  | .string s => Text.literal s
  | .sequence _ | .mapping _ | .tagged .. => "of several parts"

/-- Adds the entries of a mapping in order; `value` is what reads a node. -/
def entriesOf (mark : Mark) (value : Node → Expand Value) :
    List (Node × Node) → List (Value × Value) → Expand (List (Value × Value))
  | [], read => return read.reverse
  | (k, v) :: rest, read => do
    let key ← value k
    if read.any (fun e => e.1.same key) then throw ⟨.repeatedKey (keyText key), mark⟩
    entriesOf mark value rest ((key, ← value v) :: read)

/-- The value of a node that is no alias. `inner?` is what reads the nodes in it, if there may be
any. -/
def contentOf (inner? : Option (Node → Expand Value)) (n : Node) : Expand Value :=
  match n, inner? with
  | .alias mark _, _ => throw ⟨.anchorUnknown, mark⟩
  | .scalar mark tag style text, _ => marked mark (scalarValue tag style text)
  | .sequence _ tag items, some inner => return withTag tag (.sequence (← items.mapM inner))
  | .mapping mark tag entries, some inner =>
    return withTag tag (.mapping (← entriesOf mark inner entries []))
  | .sequence mark .., none | .mapping mark .., none => throw ⟨.tooDeep, mark⟩

/-- The value of a node that `depth` further collections may be nested in. -/
def valueOf (t : Tree) : Nat → Node → Expand Value
  | 0, n => expand t n >>= contentOf none
  | depth + 1, n => expand t n >>= contentOf (some (valueOf t depth))

def nestingLimit : Nat := 128

def Tree.value (t : Tree) : Except Fault Value :=
  match (valueOf t nestingLimit t.root).run 0 with
  | .ok (v, _) => .ok v
  | .error e => .error e

end RouteForge.Yaml
