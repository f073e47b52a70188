import RouteForge.Yaml.Token

/-! The nodes of a YAML document: what was written, with tags as they resolve and aliases not yet
replaced. An alias names its target by number, and a target is found by the place of its node, so
that the numbers may be given out before the nodes are complete. -/
namespace RouteForge.Yaml

inductive Node where
  | alias (mark : Mark) (target : Nat)
  | scalar (mark : Mark) (tag : Option String) (style : Style) (text : String)
  | sequence (mark : Mark) (tag : Option String) (items : List Node)
  | mapping (mark : Mark) (tag : Option String) (entries : List (Node × Node))
  deriving Repr, Inhabited

/-- Where a node starts. -/
def Node.mark : Node → Mark
  | .alias mark _ | .scalar mark .. | .sequence mark .. | .mapping mark .. => mark

/-- A document with its anchors. `size` counts a collection twice, for its start and its end;
a place is the size of what stands in front of it. Later targets and nodes come first. -/
structure Tree where
  root : Node
  targets : List (Nat × Nat)
  nodes : List (Nat × Node)
  size : Nat
  deriving Repr, Inhabited

/-- The node that a target number stands for when the whole document is known. -/
def Tree.target? (t : Tree) (number : Nat) : Option Node :=
  (t.targets.lookup number).bind (List.lookup · t.nodes)

end RouteForge.Yaml
