import RouteForge.Configuration.Basic
import RouteForge.Document.Error
import RouteForge.Path
import RouteForge.Text.Lines

/-! The text of a routes module: a function that binds variables and then registers every route.
A handler is wrapped by its own middlewares in their order and then by those of its group, so the
last of these is the outermost. Names and expressions are copied as they stand. -/
namespace RouteForge

/-- What the head of a module says about its making. -/
structure Stamp where
  version : String
  source : String
  deriving DecidableEq, Repr

/-- The version of this generator. -/
def Stamp.currentVersion : String := "v1.0.0"

def Stamp.ofPath (config : Path) : Stamp := ⟨Stamp.currentVersion, config.label⟩

structure Registration where
  key : String
  handler : String
  chain : List String
  deriving DecidableEq, Repr

namespace Registration

def ofRoute (g : RouteGroup) (r : Route) : Registration :=
  { key := (if r.method.isEmpty then "" else r.method ++ " ") ++ g.base ++ r.pattern
    handler := r.handler
    chain := r.middlewares ++ g.uses }

/-- The handler inside the calls of its chain: the calls are opened from the last inward, and behind
the handler each is closed again. -/
def call (r : Registration) : String :=
  String.join (r.chain.reverse.map (· ++ "(")) ++ r.handler ++ String.join (r.chain.map fun _ => ")")

def comment (r : Registration) : List String :=
  if r.chain.isEmpty then [] else ["    // " ++ r.handler ++ " <- " ++ " <- ".intercalate r.chain]

def lines (r : Registration) : List String :=
  r.comment ++
    ["    mux.handle(", "        " ++ Text.literal r.key ++ ",", "        " ++ r.call ++ ",", "    );"]

end Registration

namespace RoutesModule

def registrations (c : Configuration) : List Registration :=
  c.groups.flatMap (fun g => g.routes.map (Registration.ofRoute g))

/-- The middlewares that some registration calls. -/
def used (c : Configuration) : List String := (registrations c).flatMap (·.chain)

/-- A variable that no registration calls may stay unused. -/
def binding (used : List String) : String × String → List String
  | (name, value) =>
    (if used.contains name then [] else ["    #[allow(unused_variables)]"]) ++
      ["    let " ++ name ++ " = " ++ value ++ ";"]

def signature (c : Configuration) : String :=
  "pub fn configure_mux(mux: &mut " ++ c.mux ++
    String.join (c.args.map (fun (name, type) => ", " ++ name ++ ": " ++ type)) ++ ") \x7b"

def head (s : Stamp) : List String :=
  ["// Code generated by muxc. DO NOT EDIT.", "// versions:", "//   muxc " ++ s.version,
    "// source: " ++ s.source]

def packageLines (c : Configuration) : List String :=
  if c.package.isEmpty then []
  else ["", "//! Route registrations for the `" ++ c.package ++ "` package."]

def importLines (c : Configuration) : List String :=
  if c.imports.isEmpty then [] else "" :: c.imports.map (fun i => "use " ++ i ++ ";")

def body (c : Configuration) : List String :=
  c.vars.flatMap (binding (used c)) ++ (registrations c).flatMap Registration.lines

def lines (c : Configuration) (s : Stamp) : List String :=
  head s ++ packageLines c ++ importLines c ++
    ["", "/// Registers every configured route on `mux`.", signature c] ++ body c ++ ["\x7d"]

def render (c : Configuration) (s : Stamp) : String :=
  String.ofList (Text.unlines ((lines c s).map String.toList))

end RoutesModule
end RouteForge
