import RouteForge.Journal

/-! A run of the program from its formatter, its arguments, its environment and the files: what it
prints, what it records, the code it exits with, and the files it leaves. Watching is cut off after a
number of ticks, since by itself it ends only when the program is ended. -/
namespace RouteForge

/-- Without a code the program was ended by a signal. -/
structure Invocation where
  files : FileTree
  exit? : Option Nat
  stdout : ByteArray := .empty
  stderr : String := ""
  records : List Record := []

namespace Invocation

variable [Yaml.Wording]

/-- What was being done, the error, and the reason underneath once more. -/
def complaint (activity : String) (e : Error) : String :=
  ": ".intercalate (activity :: e.message :: e.reason?.toList) ++ "\n"

def finish (files : FileTree) (activity : String) (records : List Record) :
    Except Error String → Invocation
  | .ok text => { files := files, exit? := some 0, stdout := text.toUTF8, records := records }
  | .error e =>
    { files := files, exit? := some 1, stderr := complaint activity e, records := records }

def quoted (p : Path) : String := "'" ++ p.text ++ "'"

def printMerged (b : Build) (files : FileTree) : Invocation :=
  finish files ("error merging " ++ quoted b.config) (Journal.ofResolution b files)
    (b.mergedYaml files)

def printTree (b : Build) (files : FileTree) : Invocation :=
  finish files ("error resolving includes of " ++ quoted b.config) (Journal.ofResolution b files)
    ((b.resolve files).map IncludeTree.dump)

/-- One build. What its formatter prints is printed, ahead of anything about the build. -/
def generate (b : Build) (format : Formatter) (files : FileTree) : Invocation :=
  let r := b.run format files
  let records := Journal.ofRun b files r
  let report := if r.isFatal then { files := r.files, exit? := none, records := records }
    else finish r.files "error generating muxc routes" records (r.answer.map (fun _ => ""))
  { report with stdout := r.printed, stderr := r.complaints ++ report.stderr }

def tickRecords (b : Build) (format : Formatter) (elapsed : String)
    (files : FileTree) (t : Watch.Tick) : List Record :=
  let building := match b.resolve files with
    | .ok tree => if t.outcome = .unchanged then []
      else Journal.ofTree b tree files (b.ofTree format tree files)
    | .error _ => []
  Journal.ofResolution b files ++ building ++
    if t.isFatal then [] else Journal.ticked elapsed t.outcome

/-- Ticks up to the one that ends the program. -/
def watchFrom (b : Build) (format : Formatter) (elapsed : String) :
    Nat → Watch.State → Invocation → Invocation
  | 0, _, i => i
  | ticks + 1, s, i =>
    let t := Watch.tick b format s i.files
    let i := { i with
      files := t.files
      stdout := i.stdout ++ t.printed
      stderr := i.stderr ++ t.complaints
      records := i.records ++ tickRecords b format elapsed i.files t }
    if t.isFatal then i
    else watchFrom b format elapsed ticks t.state { i with
      stdout := i.stdout ++ (t.outcome.output elapsed).toUTF8
      stderr := i.stderr ++ t.outcome.complaint }

def watch (b : Build) (format : Formatter) (elapsed : String) (ticks : Nat) (files : FileTree) :
    Invocation :=
  watchFrom b format elapsed ticks {}
    { files := files, exit? := none, stdout := "watching for file changes...\n".toUTF8 }

def build (o : Options) : Build := { config := o.file, formats := o.format }

/-- Runs what the options ask for. -/
def ofOptions (format : Formatter) (o : Options) (e : Environment) (elapsed : String) (ticks : Nat)
    (files : FileTree) : Invocation :=
  let b := build o
  let i := if o.printMerged then printMerged b files
    else if o.printTree then printTree b files
    else if o.watch then watch b format elapsed ticks files
    else generate b format files
  let shown := (Journal.starting o :: i.records).filter
    (fun r => Settings.shows (Settings.directives e) r.target r.level)
  { i with records := shown }

def usage : String := "error: the arguments are not understood\n\nUsage: muxc [OPTIONS]\n"

def ofStop (files : FileTree) : CommandLine.Stop → Invocation
  | .help => { files := files, exit? := some 0, stdout := CommandLine.helpText.toUTF8 }
  | .version => { files := files, exit? := some 0, stdout := CommandLine.versionText.toUTF8 }
  | _ => { files := files, exit? := some 2, stderr := usage }

def run (format : Formatter) (arguments : List String) (e : Environment) (elapsed : String)
    (ticks : Nat) (files : FileTree) : Invocation :=
  match CommandLine.parse arguments with
  | .error stop => ofStop files stop
  | .ok o => ofOptions format o e elapsed ticks files

end Invocation
end RouteForge
