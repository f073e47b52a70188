import RouteForge.Fields
import RouteForge.Route

/-! The configuration of a routes module: what its function takes and binds, and the groups of
routes that it registers. -/
namespace RouteForge

/-- Routes that share a base and an outer stack of middlewares. Each line holds one route. -/
structure RouteGroup where
  uses : List String := []
  base : String := ""
  lines : List String := []
  routes : List Route := []
  deriving DecidableEq, Repr

/-- Arguments and bindings are ordered by name, so that the module does not hang on the order in
which files name them. -/
structure Configuration where
  package : String := ""
  out : String := ""
  imports : List String := []
  args : Fields String := []
  vars : Fields String := []
  mux : String := "Mux"
  groups : List RouteGroup := []
  deriving DecidableEq, Repr

def Configuration.routeCount (c : Configuration) : Nat := 
  c.groups.foldr (fun g n => g.routes.length + n) 0

end RouteForge
