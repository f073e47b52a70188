import RouteForge.Configuration.OfDocument
import RouteForge.Formatter.Basic
import RouteForge.Include.Resolve
import RouteForge.RoutesModule

/-! One build: the files of a configuration are resolved and merged, the configuration is read from
the merged document, and its routes module is written and, if wanted, formatted. Nothing is written
before the configuration has been read as a whole. -/
namespace RouteForge

structure Build where
  config : Path
  formats : Bool := false
  deriving DecidableEq, Repr

namespace Build

/-- The files that a build leaves and the path of the module, or what stopped it. -/
structure Result where
  files : FileTree
  answer : Except Error Path
  formatting? : Option Formatting := none

/-- Whether the formatter ended the program, so that nothing follows. -/
def Result.isFatal (r : Result) : Bool := r.formatting?.any (·.fatal?.isSome)

def Result.printed (r : Result) : ByteArray := (r.formatting?.map (·.printed)).getD .empty

def Result.complaints (r : Result) : String := (r.formatting?.map (·.complaints)).getD ""

def base (b : Build) : Path := Include.baseOf b.config

def moduleName : Path := Path.ofText "routes.rs"

def resolve (b : Build) (files : FileTree) : Except Error IncludeTree :=
  Include.resolveRoot files b.config

def configuration (tree : IncludeTree) : Except Error Configuration :=
  tree.merged >>= Configuration.ofDocument

def directory (b : Build) (c : Configuration) : Path := b.base.join (Path.ofText c.out)

/-- Where the module of a configuration is written. -/
def target (b : Build) (c : Configuration) : Path := (b.directory c).join moduleName

def moduleText (b : Build) (c : Configuration) : String :=
  RoutesModule.render c (Stamp.ofPath b.config)

/-- Makes the directory and writes the module, in place of whatever the file held. Where the writing
breaks off, part of the module stays. -/
def emit (b : Build) (c : Configuration) (files : FileTree) : FileTree × Except Error Path :=
  match files.makeDirectories (b.directory c) with
  | (files, .error reason) => (files, .error (.unwritable (b.directory c) reason))
  | (files, .ok ()) =>
    match files.write (b.target c) (b.moduleText c).toUTF8 with
    | (files, .error reason) => (files, .error (.unwritable (b.target c) reason))
    | (files, .ok ()) => (files, .ok (b.target c))

def formatted (path : Path) (f : Formatting) : Result :=
  { files := f.files
    answer := match f.ending with
      | .error reason => .error (.unwritable path reason)
      | .ok status => if status.succeeded then .ok path else .error (.format path status)
    formatting? := some f }

/-- Writes the module of a configuration and has it formatted. -/
def generate (b : Build) (format : Formatter) (c : Configuration) (files : FileTree) : Result :=
  match b.emit c files with
  | (files, .error e) => { files := files, answer := .error e }
  | (files, .ok path) =>
    if b.formats then formatted path (format files path) else { files := files, answer := .ok path }

/-- Builds from a tree that has been resolved. -/
def ofTree (b : Build) (format : Formatter) (tree : IncludeTree) (files : FileTree) : Result :=
  match configuration tree with
  | .error e => { files := files, answer := .error e }
  | .ok c => b.generate format c files

def run (b : Build) (format : Formatter) (files : FileTree) : Result :=
  match b.resolve files with
  | .error e => { files := files, answer := .error e }
  | .ok tree => b.ofTree format tree files

/-- The merged document as YAML, without a build. -/
def mergedYaml (b : Build) (files : FileTree) : Except Error String := do
  let tree ← b.resolve files
  let document ← tree.merged
  return document.toYaml

end Build
end RouteForge
