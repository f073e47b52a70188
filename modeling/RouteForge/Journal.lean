import RouteForge.CommandLine
import RouteForge.Settings
import RouteForge.Watch

/-! What the program records about its work, with the target and the level of each record. -/
namespace RouteForge

open RouteForge.Settings (Level)

inductive Detail where
  | text (s : String)
  | number (n : Nat)
  deriving DecidableEq, Repr

structure Record where
  level : Level
  target : String
  message : String
  details : List (String × Detail)
  deriving DecidableEq, Repr

namespace Journal

/-- A path as a literal, in which a single quote has an escape too. -/
def pathLiteral (p : Path) : String :=
  String.ofList ('"' :: p.chars.flatMap (fun c =>
    if c = '\'' then ['\\', '\''] else Text.escape Text.isHidden c) ++ ['"'])

def optionsText (o : Options) : String :=
  "Cli \x7b file: " ++ pathLiteral o.file ++ ", watch: " ++ Yaml.boolText o.watch ++
    ", print_merged: " ++ Yaml.boolText o.printMerged ++ ", print_tree: " ++
    Yaml.boolText o.printTree ++ ", rustfmt: " ++ Yaml.boolText o.format ++ " \x7d"

def starting (o : Options) : Record :=
  ⟨.debug, "muxc::cli::commands", "starting", [("cli", .text (optionsText o))]⟩

def visited (v : Include.Visit) : Record :=
  ⟨.debug, "muxc::include::resolve", "resolved configuration file",
    [("path", .text v.path.text), ("includes", .number v.includes)]⟩

def loaded (c : Configuration) : Record :=
  ⟨.debug, "muxc::config::load", "loaded configuration",
    [("groups", .number c.groups.length), ("routes", .number c.routeCount)]⟩

def emitted (path : Path) (c : Configuration) : Record :=
  ⟨.info, "muxc::generator::templates", "generated routes",
    [("path", .text path.text), ("routes", .number c.routeCount)]⟩

def finished (path : Path) : Record :=
  ⟨.debug, "muxc::pipeline", "build finished", [("output", .text path.text)]⟩

def outcomeText (elapsed : String) : Watch.Outcome → String
  | .unchanged => "Unchanged"
  | .built => "Built(" ++ elapsed ++ ")"
  | .failed message reported =>
    "Failed \x7b message: " ++ Text.literal message ++ ", reported: " ++
      Yaml.boolText reported ++ " \x7d"

def ticked (elapsed : String) (o : Watch.Outcome) : List Record :=
  (match o with
    | .failed _ false => [⟨.debug, "muxc::watch", "suppressed repeated error", []⟩]
    | _ => []) ++
  [⟨.debug, "muxc::watch", "watch tick", [("outcome", .text (outcomeText elapsed o))]⟩]

def ofResolution (b : Build) (files : FileTree) : List Record :=
  (Include.visitsOf files b.config).map visited

/-- The records of a build from a tree. A formatter that ends its caller is the last thing that
happens. -/
def ofTree (b : Build) (tree : IncludeTree) (files : FileTree) (r : Build.Result) : List Record :=
  match Build.configuration tree with
  | .error _ => []
  | .ok c =>
    loaded c :: match (b.emit c files).2 with
      | .error _ => []
      | .ok path => emitted path c :: match r.answer with
        | .ok path => if r.isFatal then [] else [finished path]
        | .error _ => []

def ofRun (b : Build) (files : FileTree) (r : Build.Result) : List Record :=
  ofResolution b files ++ match b.resolve files with
    | .error _ => []
    | .ok tree => ofTree b tree files r

end Journal
end RouteForge
