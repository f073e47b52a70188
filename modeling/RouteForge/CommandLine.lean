import RouteForge.Path

/-! The arguments of the program. Arguments are taken from left to right and the first fault ends
the reading, but a value is only examined when the next option is met or the arguments end, and
options that exclude each other are compared last. -/
namespace RouteForge

structure Options where
  file : Path
  watch : Bool := false
  printMerged : Bool := false
  printTree : Bool := false
  format : Bool := false
  deriving DecidableEq, Repr

namespace CommandLine

/-- Why no options come out. Help and version are asked for, the others are faults. -/
inductive Stop where
  | unknownArgument
  | conflict
  | invalidValue
  | tooManyValues
  | help
  | version
  deriving DecidableEq, Repr

inductive Flag where
  | watch
  | printMerged
  | printTree
  | format
  deriving DecidableEq, Repr

inductive Choice where
  | flag (f : Flag)
  | file
  | help
  | version
  deriving DecidableEq, Repr

def long? : List Char → Option Choice
  | name =>
    match String.ofList name with
    | "file" => some .file
    | "watch" => some (.flag .watch)
    | "print-merged" => some (.flag .printMerged)
    | "print-tree" => some (.flag .printTree)
    | "rustfmt" => some (.flag .format)
    | "help" => some .help
    | "version" => some .version
    | _ => none

def short? : Char → Option Choice
  | 'f' => some .file
  | 'w' => some (.flag .watch)
  | 'h' => some .help
  | 'V' => some .version
  | _ => none

/-- What has been read. `pending` holds the value of the file option, once there is one, from the
option until the value is examined. -/
structure Progress where
  flags : List Flag := []
  file : Option (List Char) := none
  pending : Option (Option (List Char)) := none
  deriving DecidableEq, Repr

namespace Progress

def setFile (p : Progress) (value : List Char) : Except Stop Progress :=
  if p.file.isSome then .error .conflict
  else if value = [] then .error .invalidValue
  else .ok { p with file := some value, pending := none }

def settle (p : Progress) : Except Stop Progress :=
  match p.pending with
  | none => .ok p
  | some none => .error .invalidValue
  | some (some value) => p.setFile value

/-- An option without a value on its side. -/
def take (p : Progress) (o : Choice) : Except Stop Progress := do
  let p ← p.settle
  match o with
  | .flag f => if p.flags.contains f then throw .conflict else return { p with flags := f :: p.flags }
  | .file => return { p with pending := some none }
  | .help => throw .help
  | .version => throw .version

def takeValue (p : Progress) (value : List Char) : Except Stop Progress := do
  (← p.settle).setFile value

/-- The letters of one argument. What follows the letter of a value is the value. -/
def takeShort (p : Progress) : List Char → Except Stop Progress
  | [] => .ok p
  | c :: rest =>
    match short? c with
    | none => .error .unknownArgument
    | some .file =>
      match rest with
      | [] => p.take .file
      | '=' :: value => p.takeValue value
      | value => p.takeValue value
    | some o => do takeShort (← p.take o) rest

def takeLong (p : Progress) (cs : List Char) : Except Stop Progress :=
  let name := cs.takeWhile (· ≠ '=')
  match long? name, cs.drop name.length with
  | none, _ => .error .unknownArgument
  | some o, [] => p.take o
  | some .file, _ :: value => p.takeValue value
  | some _, _ => .error .tooManyValues

def takeArgument (p : Progress) (argument : List Char) : Except Stop Progress :=
  match argument with
  | '-' :: '-' :: cs => p.takeLong cs
  | '-' :: c :: cs => p.takeShort (c :: cs)
  | value => if p.pending = some none then .ok { p with pending := some (some value) }
    else .error .unknownArgument

/-- Nothing may stand behind two dashes. -/
def takeAll (p : Progress) : List (List Char) → Except Stop Progress
  | [] => p.settle
  | ['-', '-'] :: rest => if rest = [] then p.settle else .error .unknownArgument
  | argument :: rest => do takeAll (← p.takeArgument argument) rest

def excludes (p : Progress) (f g : Flag) : Bool := p.flags.contains f && p.flags.contains g

end Progress

def defaultFile : List Char := "muxc.yaml".toList

def parse (arguments : List String) : Except Stop Options := do
  let p ← ({} : Progress).takeAll (arguments.map String.toList)
  if p.excludes .printMerged .watch || p.excludes .printMerged .printTree ||
      p.excludes .printTree .watch then throw .conflict
  return {
    file := ⟨p.file.getD defaultFile⟩
    watch := p.flags.contains .watch
    printMerged := p.flags.contains .printMerged
    printTree := p.flags.contains .printTree
    format := p.flags.contains .format }

def versionText : String := "muxc 1.0.0\n"

def helpText : String :=
  "Compile YAML route configuration into mux registration code\n\nUsage: muxc [OPTIONS]\n\n" ++
    "Options:\n" ++
    "  -f, --file <FILE>   Path to the root configuration file [default: muxc.yaml]\n" ++
    "  -w, --watch         Keep running and regenerate whenever a configuration file changes\n" ++
    "      --print-merged  Print the merged configuration as YAML instead of generating\n" ++
    "      --print-tree    Print the resolved include tree instead of generating\n" ++
    "      --rustfmt       Run rustfmt on the generated file\n" ++
    "  -h, --help          Print help\n" ++
    "  -V, --version       Print version\n"

end CommandLine
end RouteForge
