import RouteForge.Text.Blank
import RouteForge.Text.Fields

/-! One route on one line: a method and a pattern, a handler, and middlewares.

    [METHOD ]PATTERN ; HANDLER [; MIDDLEWARE, ...]

The names of handlers and middlewares are taken as they stand; only empty ones are refused. -/
namespace RouteForge

/-- An empty method matches every method. The first middleware is the innermost. -/
structure Route where
  method : String
  pattern : String
  handler : String
  middlewares : List String
  deriving DecidableEq, Repr

namespace Route

inductive Error where
  | missingHandler
  | tooManyParts
  | patternTooLong
  | missingPattern
  | emptyHandler
  | emptyMiddleware
  deriving DecidableEq, Repr

def Error.message : Error → String
  | missingHandler => "it should contain at least pattern and handler parts"
  | tooManyParts => "middlewares should be comma separated"
  | patternTooLong => "pattern has more than 2 parts"
  | missingPattern => "pattern is empty"
  | emptyHandler => "handler is empty"
  | emptyMiddleware => "middleware list contains an empty entry"

/-- Method and pattern stand between spaces alone, while both ends lose every blank. -/
def parseTarget (part : List Char) : Except Error (List Char × List Char) :=
  match Text.words ' ' (Text.trim part) with
  | [] => .error .missingPattern
  | [pattern] => .ok ([], pattern)
  | [method, pattern] => .ok (method, pattern)
  | _ => .error .patternTooLong

def parseMiddlewares (part : List Char) : Except Error (List (List Char)) :=
  let names := (Text.splitOn ',' part).map Text.trim
  if names.any (·.isEmpty) then .error .emptyMiddleware else .ok names

def parse (line : String) : Except Error Route := do
  let (target, handler, middlewares?) ← match Text.splitOn ';' line.toList with
    | [target, handler] => pure (target, handler, none)
    | [target, handler, middlewares] => pure (target, handler, some middlewares)
    | _ :: _ :: _ => throw .tooManyParts
    | _ => throw .missingHandler
  let (method, pattern) ← parseTarget target
  let handler := Text.trim handler
  if handler.isEmpty then throw .emptyHandler
  let middlewares ← match middlewares? with
    | some part => parseMiddlewares part
    | none => pure []
  return {
    method := String.ofList method
    pattern := String.ofList pattern
    handler := String.ofList handler
    middlewares := middlewares.map String.ofList }

end Route
end RouteForge
