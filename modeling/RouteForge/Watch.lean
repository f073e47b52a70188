import RouteForge.Build

/-! Building again whenever a file changes. Each tick resolves the files and compares the row of
their digests with that of the last build that succeeded. An error is reported unless the tick
before failed with the same text. -/
namespace RouteForge.Watch

variable [Yaml.Wording]

/-- The digests of the last success, and the error of the last tick. -/
structure State where
  lastHash : Option String := none
  lastError : Option String := none
  deriving DecidableEq, Repr

inductive Outcome where
  | unchanged
  | built
  | failed (message : String) (reported : Bool)
  deriving DecidableEq, Repr

/-- What an outcome prints, with the time that a build took. -/
def Outcome.output (elapsed : String) : Outcome → String
  | built => "Built changes in " ++ elapsed ++ "\n"
  | _ => ""

def Outcome.complaint : Outcome → String
  | failed message true => message ++ "\n"
  | _ => ""

structure Tick where
  state : State
  files : FileTree
  outcome : Outcome
  formatting? : Option Formatting := none

/-- Whether the formatter ended the program during the tick. -/
def Tick.isFatal (t : Tick) : Bool := t.formatting?.any (·.fatal?.isSome)

def Tick.printed (t : Tick) : ByteArray := (t.formatting?.map (·.printed)).getD .empty

def Tick.complaints (t : Tick) : String := (t.formatting?.map (·.complaints)).getD ""

def fail (s : State) (files : FileTree) (e : Error) : Tick :=
  { state := { s with lastError := some e.message }
    files := files
    outcome := .failed e.message (s.lastError ≠ some e.message) }

/-- Compares and builds. The digests are kept only when the build succeeds. -/
def build (b : Build) (format : Formatter) (s : State) (tree : IncludeTree) (hash : String)
    (files : FileTree) : Tick :=
  if s.lastHash = some hash then
    { state := { s with lastError := none }, files := files, outcome := .unchanged }
  else
    let r := b.ofTree format tree files
    match r.answer with
    | .error e => { fail s r.files e with formatting? := r.formatting? }
    | .ok _ =>
      { state := ⟨some hash, none⟩
        files := r.files
        outcome := .built
        formatting? := r.formatting? }

/-- A tick whose files are read twice: once to resolve them and once for their digests. -/
def tickBetween (b : Build) (format : Formatter) (s : State) (seen files : FileTree) : Tick :=
  match b.resolve seen with
  | .error e => fail s files e
  | .ok tree =>
    match tree.hash files.read with
    | .error e => fail s files e
    | .ok hash => build b format s tree hash files

/-- A tick during which nothing else changes the files. -/
def tick (b : Build) (format : Formatter) (s : State) (files : FileTree) : Tick :=
  tickBetween b format s files files

end RouteForge.Watch
