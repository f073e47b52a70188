import RouteForge.Yaml.Token.Scan
import RouteForge.Yaml.Node.OfTokens
import RouteForge.Yaml.Value.OfNode

/-! Reading a YAML text: characters to tokens, tokens to nodes, nodes to a value. -/
namespace RouteForge.Yaml

/-- A byte order mark in front of a text does not belong to it. -/
def withoutByteOrderMark : List Char → List Char
  | '\ufeff' :: rest => rest
  | cs => cs

/-- The value of a text with at most one document; without one it is null. -/
def read (text : String) : Except Fault Value := do
  match ← Tree.ofTokens (← tokens (withoutByteOrderMark text.toList)) with
  | some tree => tree.value
  | none => return .null

end RouteForge.Yaml
