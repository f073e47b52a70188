import RouteForge.Formatter.Status
import RouteForge.Shell.Command
import RouteForge.Shell.Utility

/-! Running a shell script over a file tree. A script ends with the status of its last command, by
`exit`, or by a signal that it sends itself; it may also send one to the program that called it. -/
namespace RouteForge.Shell

structure Session where
  files : FileTree
  script : List Char
  arguments : List (List Char)
  bindings : List (List Char × List Char) := []
  status : Nat := 0
  output : ByteArray := .empty
  complaints : ByteArray := .empty
  ended? : Option Status := none
  /-- the signal that ended the caller -/
  fatal? : Option Nat := none

abbrev Run := StateM Session

/-- The numbers by which a script knows its caller and itself. -/
def callerNumber : Nat := 1

def ownNumber : Nat := 2

/-- What the pieces of a word expand to. A gap parts fields, and a mark keeps an empty one. -/
inductive Atom where
  | char (c : Char)
  | gap
  | mark
  deriving DecidableEq, Repr

namespace Atom

def ofText (quoted : Bool) (cs : List Char) : List Atom :=
  if quoted then mark :: cs.map char
  else cs.map (fun c => if c = ' ' ∨ c = '\t' ∨ c = '\n' then gap else char c)

/-- The text of a word that is not split. -/
def join (as : List Atom) : List Char :=
  as.filterMap (fun a => match a with
    | char c => some c
    | gap => some ' '
    | mark => none)

def fields (as : List Atom) : List (List Char) :=
  let groups := as.foldr (fun a groups => match a, groups with
    | gap, groups => [] :: groups
    | a, [] => [[a]]
    | a, g :: rest => (a :: g) :: rest) [[]]
  (groups.filter (!·.isEmpty)).map join

end Atom

/-- Matching with a star for any text and a question mark for any character. -/
def isMatch : List Char → List Char → Bool
  | [], cs => cs.isEmpty
  | '*' :: ps, cs => isMatch ps cs || (match cs with
    | [] => false
    | _ :: rest => isMatch ('*' :: ps) rest)
  | p :: ps, c :: cs => (p = '?' || p = c) && isMatch ps cs
  | _ :: _, [] => false
  termination_by ps cs => ps.length + cs.length

/-- Signals that end a program unless it does something about them. -/
def isFatal (signal : Nat) : Bool := 0 < signal && [17, 18, 19, 20, 21, 22, 23, 28].all (· != signal)

def signal? (s : String) : Option Nat :=
  match s.toNat? with
  | some n => some n
  | none => (List.range 32).find? (fun n =>
    Status.signalName? n = some s || Status.signalName? n = some ("SIG" ++ s))

/-- The signal of a `kill` and the numbers it goes to. -/
def signalTargets (arguments : List String) : Option (Nat × List Nat) :=
  match arguments with
  | "-s" :: name :: rest => (signal? name).map (·, rest.filterMap String.toNat?)
  | first :: rest =>
    if first.startsWith "-" then
      (signal? (String.ofList (first.toList.drop 1))).map (·, rest.filterMap String.toNat?)
    else some (15, (first :: rest).filterMap String.toNat?)
  | [] => none

/-- The caller does not heed a broken pipe. -/
def send (signal target : Nat) (s : Session) : Session :=
  if !isFatal signal then s
  else if target = ownNumber then { s with ended? := some (.killed signal) }
  else if target = callerNumber ∧ signal ≠ 13 then { s with fatal? := some signal }
  else s

def Session.value (s : Session) (name : List Char) : List Char :=
  match String.ofList name with
  | "#" => (toString s.arguments.length).toList
  | "?" => (toString s.status).toList
  | "$" => (toString ownNumber).toList
  | "PPID" => (toString callerNumber).toList
  | "0" => s.script
  | "*" | "@" => [' '].intercalate s.arguments
  | text => match text.toNat? with
    | some (n + 1) => s.arguments.getD n []
    | _ => (s.bindings.lookup name).getD []

def setStatus (n : Nat) : Run Unit := modify (fun s => { s with status := n })

def assign (name value : List Char) : Run Unit :=
  modify (fun s => { s with bindings := (name, value) :: s.bindings })

def chomp (cs : List Char) : List Char := (cs.reverse.dropWhile (· = '\n')).reverse

def textOf (bytes : ByteArray) : List Char := ((String.fromUTF8? bytes).getD "").toList

/-- The name in front of an equals sign, and the word behind it. -/
def assignment? (w : Word) : Option (List Char × Word) :=
  let name := (w.map Command.plain?).takeWhile (fun p => p.any (fun cs => cs.all isNameChar))
  match w.drop name.length with
  | .text ['='] false :: value =>
    let cs := (name.filterMap id).flatten
    if cs.head?.any isNameStart then some (cs, value) else none
  | _ => none

inductive Sink where
  | channel (c : Channel)
  | file (p : Path)

/-- Where the input of a command comes from, and where its output and its complaints go. -/
structure Streams where
  input : ByteArray := .empty
  output : Sink := .channel .output
  complaints : Sink := .channel .complaints

def Streams.sink (streams : Streams) : Channel → Sink
  | .output => streams.output
  | .complaints => streams.complaints

def Streams.turn (streams : Streams) (sink : Sink) : Channel → Streams
  | .output => { streams with output := sink }
  | .complaints => { streams with complaints := sink }

/-- Appends to a file, or to what the script itself puts out. -/
def emit (sink : Sink) (bytes : ByteArray) : Run Unit :=
  modify (fun s => match sink with
    | .channel .output => { s with output := s.output ++ bytes }
    | .channel .complaints => { s with complaints := s.complaints ++ bytes }
    | .file p => match s.files.read p with
      | .error _ => s
      | .ok old => { s with files := (s.files.write p (old ++ bytes)).1 })

def openOutput (p : Path) (fresh : Bool) : Run Bool := do
  let s ← get
  if !fresh && (s.files.read p).isOk then return true
  let (files, outcome) := s.files.write p .empty
  set { s with files := files }
  return outcome.isOk

mutual

def expandPiece : Nat → Bool → Piece → Run (List Atom)
  | 0, _, _ => return []
  | fuel + 1, split, p => do
    match p with
    | .text cs quoted => return if quoted then Atom.ofText true cs else cs.map .char
    | .variable ['@'] true =>
      let parts := (← get).arguments.map (Atom.ofText true)
      return [Atom.gap].intercalate parts
    | .variable name quoted => return Atom.ofText (quoted || !split) ((← get).value name)
    | .arithmetic cs quoted =>
      let s ← get
      return Atom.ofText quoted (toString (Arithmetic.evaluate s.value cs)).toList
    | .output script quoted =>
      let s ← get
      match Command.ofScript script with
      | none => return []
      | some c =>
        let ((), inner) := (execute fuel c {}).run { s with output := .empty }
        let killed? := match inner.ended? with
          | some (.killed n) => some (Status.killed n)
          | _ => s.ended?
        let status := match inner.ended? with
          | some (.exited n) => n
          | _ => inner.status
        set { s with
          files := inner.files
          complaints := inner.complaints
          status := status
          ended? := killed?
          fatal? := inner.fatal? }
        return Atom.ofText (quoted || !split) (chomp (textOf inner.output))

def expandWords : Nat → Bool → List Word → Run (List (List Char))
  | 0, _, _ => return []
  | _ + 1, _, [] => return []
  | fuel + 1, split, w :: ws => do
    let atoms ← expandPieces fuel split w
    let rest ← expandWords fuel split ws
    return (if split then Atom.fields atoms else [Atom.join atoms]) ++ rest

def expandPieces : Nat → Bool → List Piece → Run (List Atom)
  | 0, _, _ => return []
  | _ + 1, _, [] => return []
  | fuel + 1, split, p :: ps => do
    let atoms ← expandPiece fuel split p
    return atoms ++ (← expandPieces fuel split ps)

/-- Opens redirections from left to right. Nothing comes of one that is refused. -/
def redirect : Nat → Streams → List Redirection → Run (Option Streams)
  | 0, _, _ => return none
  | _ + 1, streams, [] => return some streams
  | fuel + 1, streams, r :: rest => do
    let path (w : Word) : Run Path := do return ⟨Atom.join (← expandPieces fuel false w)⟩
    match r with
    | .input w =>
      match (← get).files.read (← path w) with
      | .ok bytes => redirect fuel { streams with input := bytes } rest
      | .error _ => return none
    | .file channel fresh w =>
      let p ← path w
      if ← openOutput p fresh then redirect fuel (streams.turn (.file p) channel) rest
      else return none
    | .follow channel target =>
      redirect fuel (streams.turn (streams.sink target) channel) rest

/-- A command by its name: what concerns the script itself, and then the programs. -/
def call : Nat → Streams → List (List Char) → Run Unit
  | 0, _, _ => return ()
  | _ + 1, _, [] => setStatus 0
  | fuel + 1, streams, name :: arguments => do
    let texts := arguments.map String.ofList
    match String.ofList name with
    | "exit" | "return" =>
      let status := (texts.head?.bind String.toNat?).getD (← get).status
      modify (fun s => { s with ended? := some (.exited (status % 256)) })
    | "kill" =>
      match signalTargets texts with
      | none => setStatus 1
      | some (signal, targets) =>
        setStatus (if targets.all (fun n => n = ownNumber || n = callerNumber) then 0 else 1)
        modify (fun s => targets.foldl (fun s n => send signal n s) s)
    | "shift" => modify (fun s => { s with arguments := s.arguments.drop 1, status := 0 })
    | "set" | "export" | "readonly" | "local" | "unset" | "trap" | "umask" => setStatus 0
    | "exec" =>
      call fuel streams arguments
      if !arguments.isEmpty then
        modify (fun s => { s with ended? := s.ended?.or (some (.exited s.status)) })
    | "command" => call fuel streams arguments
    | name =>
      match Utility.run? name (← get).files streams.input texts with
      | none => setStatus 127
      | some e =>
        modify (fun s => { s with files := e.files, status := e.status })
        emit streams.output e.output
        emit streams.complaints e.complaint.toUTF8

def execute : Nat → Command → Streams → Run Unit
  | 0, _, _ => return ()
  | fuel + 1, c, streams => do
    if (← get).ended?.isSome then return
    match c with
    | .skip => return ()
    | .simple words redirections =>
      let assignments := (words.map assignment?).takeWhile Option.isSome
      for (name, value) in assignments.filterMap id do
        setStatus 0
        assign name (Atom.join (← expandPieces fuel false value))
      if assignments.length = words.length then return
      let fields ← expandWords fuel true (words.drop assignments.length)
      match ← redirect fuel streams redirections with
      | none => setStatus 2
      | some streams => call fuel streams fields
    | .pipe source sink =>
      let s ← get
      let ((), inner) := (execute fuel source { streams with output := .channel .output }).run
        { s with output := .empty }
      set { s with files := inner.files, complaints := inner.complaints, fatal? := inner.fatal? }
      execute fuel sink { streams with input := inner.output }
    | .both first second =>
      execute fuel first streams
      if (← get).status = 0 then execute fuel second streams
    | .either first second =>
      execute fuel first streams
      if (← get).status ≠ 0 then execute fuel second streams
    | .negation c =>
      execute fuel c streams
      modify (fun s => { s with status := if s.status = 0 then 1 else 0 })
    | .sequence first second =>
      execute fuel first streams
      execute fuel second streams
    | .choice subject branches =>
      let text := Atom.join (← expandPieces fuel false subject)
      setStatus 0
      choose fuel text branches streams
    | .condition test yes no =>
      execute fuel test streams
      if (← get).status = 0 then execute fuel yes streams
      else
        setStatus 0
        execute fuel no streams
    | .loop test body =>
      execute fuel test streams
      if (← get).status = 0 ∧ (← get).ended?.isNone then
        execute fuel body streams
        execute fuel (.loop test body) streams
      else setStatus 0
    | .each name words body =>
      for value in ← expandWords fuel true words do
        assign name value
        execute fuel body streams
    | .enclosed body =>
      let s ← get
      execute fuel body streams
      modify (fun inner => { inner with
        bindings := s.bindings
        arguments := s.arguments
        status := match inner.ended? with
          | some (.exited n) => n
          | _ => inner.status
        ended? := match inner.ended? with
          | some (.killed n) => some (.killed n)
          | _ => none })
    | .redirected body redirections =>
      match ← redirect fuel streams redirections with
      | none => setStatus 2
      | some streams => execute fuel body streams

/-- The first branch with a pattern that fits. -/
def choose : Nat → List Char → List (List Word × Command) → Streams → Run Unit
  | 0, _, _, _ => return ()
  | _ + 1, _, [], _ => return ()
  | fuel + 1, text, (patterns, body) :: rest, streams => do
    let patterns ← expandWords fuel false patterns
    if patterns.any (isMatch · text) then execute fuel body streams
    else choose fuel text rest streams

end

/-- Deep enough for any script without a loop that runs on. -/
def depth (cs : List Char) : Nat := 64 * cs.length + 1000

/-- The session of a script at its end, and how it ended. A script that is not well formed does
nothing. -/
def run (files : FileTree) (cs script : List Char) (arguments : List (List Char)) :
    Session × Status :=
  let start : Session := { files := files, script := script, arguments := arguments }
  match Command.ofScript cs with
  | none => (start, .exited 2)
  | some c =>
    let ((), s) := (execute (depth cs) c {}).run start
    (s, s.ended?.getD (.exited s.status))

end RouteForge.Shell
